import DjangoMojo.Foundation.CivilTime
import Mathlib.Data.List.Sort
import Mathlib.Order.Interval.Set.Basic

/-! # Days of a zone

A zone gives each instant an offset from UTC. Local times are read with `localize`, and
a datetime that is moved keeps the offset that it was read with. The windows of a day are
24 hours long from the local time of their start.
-/

namespace DjangoMojo.Dates

open Foundation.CivilTime

/-! ### Zones -/

structure Rule where
  offset : Int
  dst : Bool
  deriving DecidableEq, Repr

/-- `pytz` keeps the changes in order; an offset is less than a day. -/
structure Zone where
  first : Rule
  changes : List (Int × Rule)
  ordered : changes.Pairwise fun one other => one.1 < other.1
  bounded : ∀ rule ∈ first :: changes.map Prod.snd, -day < rule.offset ∧ rule.offset < day

namespace Zone

variable (zone : Zone)

/-- The rule of an instant: that of the last change up to it. -/
def ruleAt (instant : Int) : Rule :=
  ((zone.changes.filter fun change => change.1 ≤ instant).getLast?.map Prod.snd).getD zone.first

def offsetAt (instant : Int) : Int := (zone.ruleAt instant).offset

/-- The local time that an instant is read as: `astimezone`. -/
def wallAt (instant : Int) : Int := instant + zone.offsetAt instant

/-- A rule that a local time may have: that of the day before or the day after, when the
zone has an offset like it at the instant. -/
def candidate (wall around : Int) : Option (Int × Rule) :=
  let instant := wall - (zone.ruleAt around).offset
  if zone.wallAt instant = wall then some (instant, zone.ruleAt instant) else none

def candidates (wall : Int) : List (Int × Rule) :=
  match zone.candidate wall (wall - day), zone.candidate wall (wall + day) with
  | some one, some other => if one.1 = other.1 then [one] else [one, other]
  | some one, none => [one]
  | none, some other => [other]
  | none, none => []

def latest : List (Int × Rule) → Int
  | [] => 0
  | one :: rest => rest.foldl (fun last other => max last other.1) one.1

/-- Of several instants the one that is not in summer time, and else the last one. -/
def choose (instants : List (Int × Rule)) : Int :=
  match instants.filter fun one => one.2.dst = false with
  | [] => latest instants
  | standard => latest standard

def earliest : Int := (zone.changes.head?.map Prod.fst).getD 0 - day - 1

theorem ruleAt_of_early {instant : Int}
    (hearly : ∀ change ∈ zone.changes, instant < change.1) : zone.ruleAt instant = zone.first := by
  have hnone : zone.changes.filter (fun change => change.1 ≤ instant) = [] := by
    rw [List.filter_eq_nil_iff]
    intro change hchange
    have := hearly change hchange
    simp only [decide_eq_true_eq]
    omega
  rw [ruleAt, hnone]
  rfl

theorem earliest_lt {wall : Int} (hnone : zone.candidates wall = []) : zone.earliest < wall := by
  by_contra hle
  have hearly : ∀ change ∈ zone.changes, wall + day < change.1 := by
    intro change hchange
    cases hchanges : zone.changes with
    | nil =>
      rw [hchanges] at hchange
      cases hchange
    | cons head rest =>
      have hordered := zone.ordered
      rw [hchanges] at hordered hchange
      have hhead : head.1 ≤ change.1 := by
        rcases List.mem_cons.mp hchange with rfl | hrest
        · exact le_rfl
        · exact ((List.pairwise_cons.mp hordered).1 change hrest).le
      unfold earliest at hle
      rw [hchanges] at hle
      simp only [List.head?_cons, Option.map_some, Option.getD_some] at hle
      omega
  have hday : (0 : Int) < day := by decide
  have hfirst := zone.bounded zone.first List.mem_cons_self
  have hbefore : zone.ruleAt (wall - day) = zone.first :=
    zone.ruleAt_of_early fun change hchange => by
      have := hearly change hchange
      omega
  have hread : zone.ruleAt (wall - zone.first.offset) = zone.first :=
    zone.ruleAt_of_early fun change hchange => by
      have := hearly change hchange
      omega
  have hcandidate : zone.candidate wall (wall - day) =
      some (wall - zone.first.offset, zone.first) := by
    rw [candidate, hbefore]
    simp only [wallAt, offsetAt, hread, Int.sub_add_cancel, if_true]
  unfold candidates at hnone
  rw [hcandidate] at hnone
  split at hnone
  next =>
    split at hnone <;> cases hnone
  next => cases hnone
  next heq _ => cases heq
  next heq _ => cases heq

/-- `localize`, as an instant: a local time that the clock passes over is read six hours
earlier, with the offset from there. -/
def localize (wall : Int) : Int :=
  match _hfound : zone.candidates wall with
  | [] => localize (wall - 6 * hour) + 6 * hour
  | [one] => one.1
  | instants => choose instants
termination_by (wall - zone.earliest).toNat
decreasing_by
  have hlt := zone.earliest_lt _hfound
  have hpos : (0 : Int) < hour := by decide
  omega

def localOffset (wall : Int) : Int := wall - zone.localize wall

end Zone

/-! ### Windows -/

structure Window where
  start : Int
  stop : Int
  deriving DecidableEq, Repr

namespace Zone

variable (zone : Zone)

def cutover (hours instant : Int) : Int := zone.localize (atClock (zone.wallAt instant) hours 0)

/-- `get_local_day`. -/
def getLocalDay (instant : Int) (hours : Int) : Window where
  start := zone.cutover hours instant
  stop := zone.cutover hours instant + day

/-- `get_utc_operating_day`. -/
def getUtcOperatingDay (localHour instant : Int) : Except String Window :=
  if 0 ≤ localHour ∧ localHour ≤ 23 then
    let today := zone.cutover localHour instant
    if instant < today then .ok ⟨today - day, today⟩
    else .ok ⟨today, today + day⟩
  else .error "local_hour must be between 0 and 23"

end Zone

/-- The window of an instant contains it, and the window of its end starts there. -/
def TilesAt (window : Int → Except String Window) (instant : Int) : Prop :=
  ∃ current next, window instant = .ok current ∧ current.start ≤ instant ∧
    instant < current.stop ∧ window current.stop = .ok next ∧ next.start = current.stop

/-! ### When the windows tile -/

namespace Zone

variable (zone : Zone)

def dateAt (instant : Int) : Int := dayOf (zone.wallAt instant)

def cutoverOffset (hours date : Int) : Int := zone.localOffset (date * day + hours * hour)

theorem cutover_eq (hours instant : Int) : zone.cutover hours instant =
    zone.dateAt instant * day + hours * hour - zone.cutoverOffset hours (zone.dateAt instant) := by
  have hclock : atClock (zone.wallAt instant) hours 0 =
      zone.dateAt instant * day + hours * hour := by
    rw [atClock, dateAt, Int.zero_mul, Int.add_zero]
  rw [cutoverOffset, localOffset, cutover, hclock]
  omega

/-- An offset that the hour of a later date is read with, which is that of the first
date but for the whole dates that the clock passes over. -/
def SameCutover (hours date following : Int) (count : Int) : Prop :=
  zone.cutoverOffset hours following =
    zone.cutoverOffset hours date + (following - date - count) * day

/-- Midnight's offset still gives the instant its date, and a day later the midnight of
the date then is read with it too. -/
structure LocalDayFits (instant : Int) : Prop where
  reads : dayOf (instant + zone.cutoverOffset 0 (zone.dateAt instant)) = zone.dateAt instant
  keeps : zone.SameCutover 0 (zone.dateAt instant)
    (zone.dateAt ((zone.dateAt instant + 1) * day - zone.cutoverOffset 0 (zone.dateAt instant))) 1

/-- The date whose hour ends the operating day of an instant. -/
def closingDate (hours instant : Int) : Int :=
  if instant + zone.cutoverOffset hours (zone.dateAt instant) <
      zone.dateAt instant * day + hours * hour then zone.dateAt instant
  else zone.dateAt instant + 1

/-- Under the offset of the hour of its date the instant is less than a day from that
hour, and where the day ends the hour of the date then is read with the same offset. -/
structure OperatingDayFits (hours instant : Int) : Prop where
  reads : (zone.dateAt instant - 1) * day + hours * hour ≤
      instant + zone.cutoverOffset hours (zone.dateAt instant) ∧
    instant + zone.cutoverOffset hours (zone.dateAt instant) <
      (zone.dateAt instant + 1) * day + hours * hour
  keeps : ∃ count, (count = zone.closingDate hours instant - zone.dateAt instant ∨
      count = zone.closingDate hours instant - zone.dateAt instant + 1) ∧
    zone.SameCutover hours (zone.dateAt instant) (zone.dateAt
      (zone.closingDate hours instant * day + hours * hour -
        zone.cutoverOffset hours (zone.dateAt instant))) count

theorem getLocalDay_tiles_iff (instant : Int) :
    TilesAt (fun time => .ok (zone.getLocalDay time 0)) instant ↔ zone.LocalDayFits instant := by
  have hstart := zone.cutover_eq 0 instant
  have hstop : zone.cutover 0 instant + day = (zone.dateAt instant + 1) * day -
      zone.cutoverOffset 0 (zone.dateAt instant) := by
    rw [hstart, Int.add_mul]
    omega
  have hnext := zone.cutover_eq 0 (zone.cutover 0 instant + day)
  rw [hstop] at hnext
  have hreads : dayOf (instant + zone.cutoverOffset 0 (zone.dateAt instant)) =
      zone.dateAt instant ↔
      zone.cutover 0 instant ≤ instant ∧ instant < zone.cutover 0 instant + day := by
    rw [hstart, dayOf, Int.ediv_eq_iff_of_pos (by decide)]
    omega
  have hkeeps : zone.cutover 0 (zone.cutover 0 instant + day) = zone.cutover 0 instant + day ↔
      zone.SameCutover 0 (zone.dateAt instant) (zone.dateAt ((zone.dateAt instant + 1) * day -
        zone.cutoverOffset 0 (zone.dateAt instant))) 1 := by
    rw [hstop, hnext, SameCutover]
    generalize zone.dateAt ((zone.dateAt instant + 1) * day -
      zone.cutoverOffset 0 (zone.dateAt instant)) = following
    simp only [Int.add_mul, Int.sub_mul]
    omega
  constructor
  · rintro ⟨current, next, hcurrent, hlow, hhigh, hfollowing, hsame⟩
    cases hcurrent
    cases hfollowing
    exact ⟨hreads.mpr ⟨hlow, hhigh⟩, hkeeps.mp hsame⟩
  · rintro ⟨hdate, hoffset⟩
    obtain ⟨hlow, hhigh⟩ := hreads.mp hdate
    exact ⟨_, _, rfl, hlow, hhigh, rfl, hkeeps.mpr hoffset⟩

theorem getUtcOperatingDay_eq {hours : Int} (hhours : 0 ≤ hours ∧ hours ≤ 23) (instant : Int) :
    zone.getUtcOperatingDay hours instant =
      .ok (if instant < zone.cutover hours instant then
          ⟨zone.cutover hours instant - day, zone.cutover hours instant⟩
        else ⟨zone.cutover hours instant, zone.cutover hours instant + day⟩) := by
  rw [getUtcOperatingDay, if_pos hhours]
  dsimp only
  split <;> rfl

theorem operatingDay_start_iff {hours instant : Int} :
    (if instant < zone.cutover hours instant then
        (⟨zone.cutover hours instant - day, zone.cutover hours instant⟩ : Window)
      else ⟨zone.cutover hours instant, zone.cutover hours instant + day⟩).start = instant ↔
      zone.cutover hours instant = instant ∨ zone.cutover hours instant = instant + day := by
  have hday : 0 < day := by decide
  split
  next hbefore =>
    dsimp only
    omega
  next hafter =>
    dsimp only
    omega

theorem getUtcOperatingDay_tiles_iff (hours instant : Int) :
    TilesAt (zone.getUtcOperatingDay hours) instant ↔
      (0 ≤ hours ∧ hours ≤ 23) ∧ zone.OperatingDayFits hours instant := by
  by_cases hhours : 0 ≤ hours ∧ hours ≤ 23
  swap
  · refine iff_of_false ?_ fun hall => hhours hall.1
    rintro ⟨current, _, hcurrent, _⟩
    rw [getUtcOperatingDay, if_neg hhours] at hcurrent
    cases hcurrent
  have hwindow := zone.getUtcOperatingDay_eq hhours
  have hstart := zone.cutover_eq hours instant
  have hday : 0 < day := by decide
  -- The end of the window: the hour of the closing date, under the offset of today's.
  have hclosing : (if instant < zone.cutover hours instant then
        (⟨zone.cutover hours instant - day, zone.cutover hours instant⟩ : Window)
      else ⟨zone.cutover hours instant, zone.cutover hours instant + day⟩) =
      ⟨zone.closingDate hours instant * day + hours * hour -
          zone.cutoverOffset hours (zone.dateAt instant) - day,
        zone.closingDate hours instant * day + hours * hour -
          zone.cutoverOffset hours (zone.dateAt instant)⟩ := by
    unfold closingDate
    by_cases hbefore : instant < zone.cutover hours instant
    · rw [if_pos hbefore, if_pos (by omega), hstart]
    · rw [if_neg hbefore, if_neg (by omega), hstart]
      simp only [Int.add_mul, Window.mk.injEq]
      omega
  have hreads : (zone.closingDate hours instant * day + hours * hour -
        zone.cutoverOffset hours (zone.dateAt instant) - day ≤ instant ∧
      instant < zone.closingDate hours instant * day + hours * hour -
        zone.cutoverOffset hours (zone.dateAt instant)) ↔
      (zone.dateAt instant - 1) * day + hours * hour ≤
          instant + zone.cutoverOffset hours (zone.dateAt instant) ∧
        instant + zone.cutoverOffset hours (zone.dateAt instant) <
          (zone.dateAt instant + 1) * day + hours * hour := by
    unfold closingDate
    split
    next hbefore =>
      simp only [Int.add_mul, Int.sub_mul]
      omega
    next hafter =>
      simp only [Int.add_mul, Int.sub_mul]
      omega
  have hkeeps := @operatingDay_start_iff zone hours (zone.closingDate hours instant * day +
    hours * hour - zone.cutoverOffset hours (zone.dateAt instant))
  have hnext := zone.cutover_eq hours (zone.closingDate hours instant * day +
    hours * hour - zone.cutoverOffset hours (zone.dateAt instant))
  have hsame (following count : Int) : zone.SameCutover hours (zone.dateAt instant) following
        (zone.closingDate hours instant - zone.dateAt instant + count) ↔
      following * day + hours * hour - zone.cutoverOffset hours following =
        zone.closingDate hours instant * day + hours * hour -
          zone.cutoverOffset hours (zone.dateAt instant) + count * day := by
    rw [SameCutover]
    simp only [Int.add_mul, Int.sub_mul]
    omega
  constructor
  · rintro ⟨current, next, hcurrent, hlow, hhigh, hfollowing, hends⟩
    rw [hwindow, hclosing, Except.ok.injEq] at hcurrent
    subst hcurrent
    rw [hwindow, Except.ok.injEq] at hfollowing
    subst hfollowing
    refine ⟨hhours, hreads.mp ⟨hlow, hhigh⟩, ?_⟩
    rw [hkeeps, hnext] at hends
    rcases hends with hends | hends
    · exact ⟨_, .inl rfl, by simpa using (hsame _ 0).mpr (by omega)⟩
    · exact ⟨_, .inr rfl, (hsame _ 1).mpr (by omega)⟩
  · rintro ⟨_, hdate, count, hcount, hoffset⟩
    obtain ⟨hlow, hhigh⟩ := hreads.mpr hdate
    refine ⟨_, _, (hwindow _).trans (congrArg Except.ok hclosing), hlow, hhigh, hwindow _, ?_⟩
    rw [hkeeps, hnext]
    rcases hcount with rfl | rfl
    · have := (hsame _ 0).mp (by simpa using hoffset)
      omega
    · have := (hsame _ 1).mp hoffset
      omega

/-- Both kinds of windows tile time at an instant if and only if the offset of the start
is still the one at the instant and where the next window starts. -/
theorem windows_tile_iff (instant hours : Int) :
    (TilesAt (fun time => .ok (zone.getLocalDay time 0)) instant ↔ zone.LocalDayFits instant) ∧
      (TilesAt (zone.getUtcOperatingDay hours) instant ↔
        (0 ≤ hours ∧ hours ≤ 23) ∧ zone.OperatingDayFits hours instant) :=
  ⟨zone.getLocalDay_tiles_iff instant, zone.getUtcOperatingDay_tiles_iff hours instant⟩

/-! ### Zones that keep their offset -/

end Zone

/-! ### A day of 25 hours -/

/-- A zone that turns the clock back from seven to eight hours behind UTC, at 2 o'clock on
the second day. -/
def fallingBack : Zone where
  first := ⟨-(7 * hour), true⟩
  changes := [(day + 9 * hour, ⟨-(8 * hour), false⟩)]
  ordered := List.pairwise_singleton _ _
  bounded := by decide

theorem fallingBack_midnight : fallingBack.localize day = day + 7 * hour := by
  have hcandidates : fallingBack.candidates day =
      [(day + 7 * hour, ⟨-(7 * hour), true⟩)] := by decide
  rw [Zone.localize, hcandidates]

/-- At half past eleven in the evening of that day the day is over. -/
theorem not_all_windows_tile : ¬∀ (zone : Zone) (instant : Int),
    TilesAt (fun time => .ok (zone.getLocalDay time 0)) instant := by
  intro hall
  obtain ⟨current, _, hcurrent, _, hhigh, _⟩ :=
    hall fallingBack (day + 31 * hour + 30 * minute)
  have hmidnight : atClock (fallingBack.wallAt (day + 31 * hour + 30 * minute)) 0 0 = day := by
    decide
  cases hcurrent
  rw [Zone.getLocalDay, Zone.cutover, hmidnight, fallingBack_midnight] at hhigh
  revert hhigh
  decide

end DjangoMojo.Dates
