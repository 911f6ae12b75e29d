import DjangoMojo.Foundation.Checks
import DjangoMojo.Foundation.Json
import DjangoMojo.Metrics.Buckets
import Mathlib.Algebra.BigOperators.Group.Finset.Basic
import Mathlib.Algebra.BigOperators.Group.List.Lemmas
import Mathlib.Algebra.Order.BigOperators.Group.List
import Mathlib.Data.List.Sort

/-! # Histograms

A histogram counts the rows of a list by the bucket of a time. The database cuts the times
off in the timezone of its session, and the buckets are those of UTC. They are filled from
the start of the range of dates to its end, which the list has read for its filter in
another way.
-/

namespace DjangoMojo.Rest.Histogram

open Foundation Metrics
open scoped BigOperators

/-! ### Buckets -/

inductive Bucket where
  | minute | hour | day | week | month
  deriving DecidableEq, Repr

namespace Bucket

/-- `BUCKET_DELTAS`; the step of a month is no length. -/
def delta : Bucket → Nat
  | .minute => Metrics.minute
  | .hour => Metrics.hour
  | .day => Metrics.day
  | .week => 7 * Metrics.day
  | .month => 0

/-- The units that the buckets are; the first day of the calendar is a Monday. -/
def blocks : Bucket → Blocks
  | .minute => Blocks.every Metrics.minute Metrics.minute_pos
  | .hour => Blocks.every Metrics.hour Metrics.hour_pos
  | .day => Blocks.every Metrics.day Metrics.day_pos
  | .week => (Blocks.every 7 (by decide)).scale Metrics.day Metrics.day_pos
  | .month => Gregorian.months.scale Metrics.day Metrics.day_pos

end Bucket

/-- `_bucket_floor` of a time of UTC. -/
def bucketFloor (bucket : Bucket) (time : Nat) : Nat :=
  match bucket with
  | .minute => time - time % minute
  | .hour => time - time % hour
  | .day => time - time % day
  | .week =>
    let floored := time - time % day
    floored - dayOf floored % 7 * day
  | .month => time - time % day - (dayInMonth time - 1) * day

/-- `_next_bucket`, unless it is beyond the calendar. -/
def nextBucket (bucket : Bucket) (time : Nat) : Option Nat :=
  match bucket with
  | .month =>
    let month := Gregorian.monthOf (dayOf time) + 1
    let date := Gregorian.monthDay month + (dayInMonth time - 1)
    let following := date * day + time % day
    if date < Gregorian.monthDay (month + 1) ∧ following < wallEnd then some following else none
  | _ => if time + bucket.delta < wallEnd then some (time + bucket.delta) else none

/-- `_estimate_bucket_count`. -/
def estimateBucketCount (bucket : Bucket) (first last : Nat) : Int :=
  if last < first then 0
  else
    match bucket with
    | .month =>
      ((yearOf last : Int) - yearOf first) * 12 + (monthInYear last - monthInYear first) + 1
    | _ => ((last - first) / bucket.delta : Nat) + 1

/-- `_to_epoch`, of a whole second. -/
def toEpoch (time : Nat) : Int := (time / 1000000 : Nat) - 62135596800

theorem floor_every {length : Nat} (time : Nat) :
    time - time % length = time / length * length := by
  have hsplit := Nat.div_add_mod time length
  rw [Nat.mul_comm] at hsplit
  omega

theorem bucketFloor_eq (bucket : Bucket) (time : Nat) :
    bucketFloor bucket time = bucket.blocks.start (bucket.blocks.index time) := by
  cases bucket with
  | minute => exact floor_every time
  | hour => exact floor_every time
  | day => exact floor_every time
  | week =>
    have hday : dayOf (dayOf time * day) = dayOf time :=
      Nat.mul_div_cancel _ (by decide)
    change time - time % day - dayOf (time - time % day) % 7 * day = _
    rw [floor_every]
    change dayOf time * day - dayOf (dayOf time * day) % 7 * day = dayOf time / 7 * 7 * day
    rw [hday, ← Nat.sub_mul, floor_every]
  | month =>
    have hstart := (Gregorian.monthOf_spec (dayOf time)).1
    change time - time % day - (dayInMonth time - 1) * day =
      Gregorian.monthDay (Gregorian.monthOf (dayOf time)) * day
    rw [floor_every, dayInMonth, Nat.add_sub_cancel]
    change dayOf time * day - _ = _
    rw [← Nat.sub_mul]
    congr 1
    omega

theorem dayOf_start_month (month : Nat) : dayOf (Bucket.month.blocks.start month) =
    Gregorian.monthDay month := Nat.mul_div_cancel _ (by decide)

theorem monthOf_start (month : Nat) :
    Gregorian.monthOf (dayOf (Bucket.month.blocks.start month)) = month := by
  rw [dayOf_start_month]
  exact Gregorian.months.index_start month

theorem start_month (month : Nat) :
    Bucket.month.blocks.start month = Gregorian.monthDay month * day := rfl

theorem nextBucket_delta {bucket : Bucket} (hmonth : bucket ≠ .month) (time : Nat) :
    nextBucket bucket time =
      if time + bucket.delta < wallEnd then some (time + bucket.delta) else none := by
  cases bucket with
  | minute | hour | day | week => rfl
  | month => exact absurd rfl hmonth

theorem start_succ {bucket : Bucket} (hmonth : bucket ≠ .month) (index : Nat) :
    bucket.blocks.start (index + 1) = bucket.blocks.start index + bucket.delta := by
  cases bucket with
  | minute => exact Nat.succ_mul index Metrics.minute
  | hour => exact Nat.succ_mul index Metrics.hour
  | day => exact Nat.succ_mul index Metrics.day
  | week =>
    change (index + 1) * 7 * day = index * 7 * day + 7 * day
    rw [Nat.succ_mul, Nat.add_mul]
  | month => exact absurd rfl hmonth

theorem nextBucket_start (bucket : Bucket) (index : Nat) :
    nextBucket bucket (bucket.blocks.start index) =
      if bucket.blocks.start (index + 1) < wallEnd then some (bucket.blocks.start (index + 1))
      else none := by
  by_cases hmonth : bucket = .month
  · subst hmonth
    have hindex := monthOf_start index
    have hdate : dayInMonth (Bucket.month.blocks.start index) - 1 = 0 := by
      rw [dayInMonth, Nat.add_sub_cancel, hindex, dayOf_start_month, Nat.sub_self]
    have hrest : Bucket.month.blocks.start index % day = 0 := Nat.mul_mod_left _ _
    have hlt : Gregorian.monthDay (index + 1) < Gregorian.monthDay (index + 1 + 1) :=
      Gregorian.months.start_lt (index + 1)
    unfold nextBucket
    dsimp only
    rw [hindex, hdate, hrest, start_month]
    simp only [Nat.add_zero, hlt, true_and]
  · rw [nextBucket_delta hmonth, start_succ hmonth]

theorem start_lt_iff (bucket : Bucket) {first second : Nat} :
    bucket.blocks.start first < bucket.blocks.start second ↔ first < second := by
  rw [← Blocks.index_lt_iff, Blocks.index_start]

theorem estimateBucketCount_start (bucket : Bucket) (first last : Nat) :
    estimateBucketCount bucket (bucket.blocks.start first) (bucket.blocks.start last) =
      (last + 1 - first : Nat) := by
  unfold estimateBucketCount
  split
  next hlt =>
    have := (start_lt_iff bucket).mp hlt
    omega
  next hstart =>
    have hle : ¬last < first := fun hlt => hstart ((start_lt_iff bucket).mpr hlt)
    have hlength (length : Nat) (hlength : 0 < length) :
        ((last * length - first * length) / length : Nat) + 1 =
          ((last + 1 - first : Nat) : Int) := by
      rw [← Nat.sub_mul, Nat.mul_div_cancel _ hlength]
      omega
    cases bucket with
    | minute => exact hlength Metrics.minute (by decide)
    | hour => exact hlength Metrics.hour (by decide)
    | day => exact hlength Metrics.day (by decide)
    | week =>
      have hweek := hlength (7 * Metrics.day) (by decide)
      rw [← Nat.mul_assoc, ← Nat.mul_assoc] at hweek
      exact hweek
    | month =>
      dsimp only
      unfold yearOf monthInYear
      rw [← Gregorian.monthOf_div, ← Gregorian.monthOf_div, monthOf_start, monthOf_start]
      omega

theorem toEpoch_start_lt (bucket : Bucket) {first second : Nat} (hlt : first < second) :
    toEpoch (bucket.blocks.start first) < toEpoch (bucket.blocks.start second) := by
  have hminutes : ∃ unit, ∀ index, ∃ count, bucket.blocks.start index = count * unit * 1000000 := by
    cases bucket with
    | minute => exact ⟨60, fun index => ⟨index, (Nat.mul_assoc _ 60 1000000).symm⟩⟩
    | hour => exact ⟨3600, fun index => ⟨index, (Nat.mul_assoc _ 3600 1000000).symm⟩⟩
    | day => exact ⟨86400, fun index => ⟨index, (Nat.mul_assoc _ 86400 1000000).symm⟩⟩
    | week => exact ⟨86400, fun index => ⟨index * 7, (Nat.mul_assoc _ 86400 1000000).symm⟩⟩
    | month =>
      exact ⟨86400, fun index => ⟨Gregorian.monthDay index, (Nat.mul_assoc _ 86400 1000000).symm⟩⟩
  obtain ⟨unit, hunit⟩ := hminutes
  obtain ⟨one, hone⟩ := hunit first
  obtain ⟨two, htwo⟩ := hunit second
  have hstart := (start_lt_iff bucket).mpr hlt
  unfold toEpoch
  rw [hone, htwo] at hstart ⊢
  rw [Nat.mul_div_cancel _ (by decide), Nat.mul_div_cancel _ (by decide)]
  have := Nat.lt_of_mul_lt_mul_right hstart
  omega

theorem toEpoch_floor_inj (bucket : Bucket) {first second : Nat}
    (heq : toEpoch (bucketFloor bucket first) = toEpoch (bucketFloor bucket second)) :
    bucketFloor bucket first = bucketFloor bucket second := by
  rw [bucketFloor_eq, bucketFloor_eq] at heq ⊢
  rcases Nat.lt_trichotomy (bucket.blocks.index first) (bucket.blocks.index second) with
    hlt | hsame | hlt
  · have := toEpoch_start_lt bucket hlt
    omega
  · rw [hsame]
  · have := toEpoch_start_lt bucket hlt
    omega

/-! ### Partial dates -/

structure Parts where
  year : Nat
  month : Option Nat
  date : Option Nat

structure Readers where
  digit : Char → Option Nat
  /-- `pytz.timezone(name).localize`, as an instant. -/
  localize : String → Option (Nat → Nat)
  /-- `parse_datetime`, as an instant. -/
  parseDatetime : Json → Except String Nat

variable (readers : Readers)

/-- `int` of at least `few` and at most `many` digits. -/
def digits (few many : Nat) (text : List Char) : Option Nat :=
  if few ≤ text.length ∧ text.length ≤ many then
    (text.mapM readers.digit).map fun values => values.foldl (fun number value =>
      10 * number + value) 0
  else none

/-- `parse_partial_date`; the pattern also ends before a last line break. -/
def parsePartialDate : Json → Option Parts
  | .str value =>
    let text := if value.toList.getLast? = some '\n' then value.toList.dropLast else value.toList
    match text.splitOn '-' with
    | [year] => (digits readers 4 4 year).map fun year => ⟨year, none, none⟩
    | [year, month] => do
        let year ← digits readers 4 4 year
        let month ← digits readers 1 2 month
        pure ⟨year, some month, none⟩
    | [year, month, date] => do
        let year ← digits readers 4 4 year
        let month ← digits readers 1 2 month
        let date ← digits readers 1 2 date
        pure ⟨year, some month, some date⟩
    | _ => none
  | _ => none

/-- `partial_date_to_range`, with the times that a day, a month or a year begins and ends at. -/
def partialDateToRange (localize : Nat → Nat) (parts : Parts) : Except String (Nat × Nat) := do
  let month := 12 * (parts.year - 1) + (parts.month.getD 1 - 1)
  check (parts.month.all fun month => 1 ≤ month ∧ month ≤ 12) "Invalid month"
  check (1 ≤ parts.year) "year 0 is out of range"
  check (parts.date.all fun date =>
    1 ≤ date ∧ Gregorian.monthDay month + date ≤ Gregorian.monthDay (month + 1)) "Invalid day"
  let (first, last) := match parts.month, parts.date with
    | some _, some date =>
      (Gregorian.monthDay month + (date - 1), Gregorian.monthDay month + date)
    | some _, none => (Gregorian.monthDay month, Gregorian.monthDay (month + 1))
    | none, _ => (Gregorian.yearDay (parts.year - 1), Gregorian.yearDay parts.year)
  pure (localize (first * day), localize (last * day - 1))

/-! ### Requests -/

/-- The range of dates of a request, and the timezone that partial dates are read in. -/
structure Request where
  drStart : Option Json
  drEnd : Option Json
  timezone : Option Json

structure Row where
  time : Option Nat
  /-- The time that `dr_field` names. -/
  ranged : Option Nat

/-- The `localize` of `partial_date_to_range`: UTC, unless a name is given. -/
def Request.localize (request : Request) : Except String (Nat → Nat) :=
  match request.timezone with
  | some (.str name) =>
    match readers.localize name with
    | some localize => pure localize
    | none => .error "UnknownTimeZoneError"
  | _ => pure id

def filterEnd (request : Request) (pick : Nat × Nat → Nat) :
    Option Json → Except String (Option Nat)
  | none => pure none
  | some value =>
    if !value.truthy then pure none
    else
      match parsePartialDate readers value with
      | some parts => do
          let localize ← request.localize readers
          let ends ← partialDateToRange localize parts
          pure (some (pick ends))
      | none => do
          let instant ← readers.parseDatetime value
          pure (some instant)

/-- `on_rest_list_date_range_filter`. -/
def dateRangeFilter (request : Request) (rows : List Row) : Except String (List Row) := do
  let start ← filterEnd readers request Prod.fst request.drStart
  let finish ← filterEnd readers request Prod.snd request.drEnd
  pure (rows.filter fun row =>
    (start.all fun start => row.ranged.any fun time => start ≤ time) &&
      finish.all fun finish => row.ranged.any fun time => time ≤ finish)

/-! ### The histogram -/

structure Session where
  wallAt : Nat → Nat
  /-- `make_aware` of a local time, as an instant. -/
  aware : Nat → Nat

variable (session : Session) (bucket : Bucket)

def truncated (time : Nat) : Nat := bucketFloor bucket (session.wallAt time)

def refloored (wall : Nat) : Nat := bucketFloor bucket (session.aware wall)

def times (rows : List Row) : List Nat := rows.filterMap Row.time

def groups (rows : List Row) : List (Int × Nat) :=
  let walls := (times rows).map (truncated session bucket)
  (walls.dedup.insertionSort (· ≤ ·)).map fun wall =>
    (toEpoch (refloored session bucket wall), walls.count wall)

def firstOf (entries : List (Int × Nat)) (key : Int) : Nat :=
  ((entries.find? fun entry => entry.1 = key).map Prod.snd).getD 0

/-- `counts_by_bucket.get(key, 0)`: the last group of a bucket is stored over the others. -/
def countsByBucket (rows : List Row) (key : Int) : Nat :=
  firstOf (groups session bucket rows).reverse key

def windowEnd : Option Json → Except String (Option Nat)
  | none => pure none
  | some value =>
    if !value.truthy then pure none
    else do
      let instant ← readers.parseDatetime value
      pure (some instant)

def window (request : Request) (rows : List Row) : Except String (Option (Nat × Nat)) := do
  let start ← windowEnd readers request.drStart
  let finish ← windowEnd readers request.drEnd
  pure (match start <|> (times rows).min?, finish <|> (times rows).max? with
    | some start, some finish => some (bucketFloor bucket start, bucketFloor bucket finish)
    | _, _ => none)

theorem lt_nextBucket {bucket : Bucket} {time following : Nat}
    (hnext : nextBucket bucket time = some following) : time < following := by
  by_cases hmonth : bucket = .month
  · subst hmonth
    unfold nextBucket at hnext
    dsimp only at hnext
    split at hnext
    next =>
      cases hnext
      have hday := (Gregorian.monthOf_spec (dayOf time)).2
      have hpos : 0 < day := by decide
      have hnext : (dayOf time + 1) * day ≤
          (Gregorian.monthDay (Gregorian.monthOf (dayOf time) + 1) + (dayInMonth time - 1)) *
            day := Nat.mul_le_mul_right day (by omega)
      have htime := Nat.lt_mul_of_div_lt (Nat.lt_succ_self (time / day)) hpos
      change time < (dayOf time + 1) * day at htime
      omega
    next => cases hnext
  · rw [nextBucket_delta hmonth] at hnext
    have hdelta : 0 < bucket.delta := by
      cases bucket with
      | minute | hour | day | week => decide
      | month => exact absurd rfl hmonth
    split at hnext
    next =>
      cases hnext
      omega
    next => cases hnext

def walk (last cursor : Nat) : Except String (List Nat) :=
  if cursor ≤ last then
    match _hnext : nextBucket bucket cursor with
    | none => .error "OverflowError"
    | some following => do
        let rest ← walk last following
        pure (cursor :: rest)
  else pure []
termination_by last + 1 - cursor
decreasing_by
  have := lt_nextBucket _hnext
  omega

/-- `_agg_histogram` of the rows that the list has filtered. -/
def histogram (cap : Int) (request : Request) (rows : List Row) :
    Except String (List (Int × Nat)) := do
  let filtered ← dateRangeFilter readers request rows
  let found ← window readers bucket request filtered
  match found with
  | none => pure []
  | some (first, last) => do
      check (estimateBucketCount bucket first last ≤ cap) "histogram window exceeds cap"
      let cursors ← walk bucket last first
      pure (cursors.map fun cursor =>
        (toEpoch cursor, countsByBucket session bucket filtered (toEpoch cursor)))

/-! ### The walk -/

variable {readers session bucket}

theorem walk_start {last first : Nat} {cursors : List Nat}
    (hwalk : walk bucket (bucket.blocks.start last) (bucket.blocks.start first) = .ok cursors) :
    cursors = (List.range' first (last + 1 - first)).map bucket.blocks.start ∧
      cursors.IsChain fun one other => nextBucket bucket one = some other := by
  induction hcount : last + 1 - first generalizing first cursors with
  | zero =>
    have hlt := (start_lt_iff bucket).mpr (show last < first by omega)
    rw [walk, if_neg (not_le.mpr hlt), pure_ok] at hwalk
    subst hwalk
    exact ⟨rfl, List.isChain_nil⟩
  | succ count ih =>
    have hle := bucket.blocks.start_mono (show first ≤ last by omega)
    rw [walk, if_pos hle] at hwalk
    split at hwalk
    next => cases hwalk
    next following hnext =>
      have hfollowing : following = bucket.blocks.start (first + 1) := by
        rw [nextBucket_start] at hnext
        split at hnext
        next => exact (Option.some.inj hnext).symm
        next => cases hnext
      subst hfollowing
      simp only [bind_ok, pure_ok] at hwalk
      obtain ⟨rest, hrest, rfl⟩ := hwalk
      obtain ⟨hcursors, hchain⟩ := ih hrest (by omega)
      refine ⟨by rw [hcursors, List.range'_succ, List.map_cons], ?_⟩
      cases count with
      | zero =>
        rw [hcursors]
        exact List.isChain_singleton _
      | succ count =>
        rw [List.range'_succ, List.map_cons] at hcursors
        rw [hcursors] at hchain ⊢
        exact hchain.cons_cons hnext

/-! ### First matches -/

theorem firstOf_cons (entry : Int × Nat) (entries : List (Int × Nat)) (key : Int) :
    firstOf (entry :: entries) key = if entry.1 = key then entry.2 else firstOf entries key := by
  unfold firstOf
  rw [List.find?_cons]
  by_cases hkey : entry.1 = key
  · simp [hkey]
  · simp [hkey]

/-- The first entries of some keys come to what all entries come to, just where the entries
have those keys and each has its own. -/
theorem sum_firstOf {entries : List (Int × Nat)} (hpos : ∀ entry ∈ entries, 0 < entry.2)
    (keys : Finset Int) :
    ∑ key ∈ keys, firstOf entries key ≤ (entries.map Prod.snd).sum ∧
      (∑ key ∈ keys, firstOf entries key = (entries.map Prod.snd).sum ↔
        (∀ entry ∈ entries, entry.1 ∈ keys) ∧ (entries.map Prod.fst).Nodup) := by
  induction entries generalizing keys with
  | nil => simp [firstOf]
  | cons entry rest ih =>
    have hentry := hpos entry List.mem_cons_self
    have hrest := ih fun other hother => hpos other (List.mem_cons_of_mem _ hother)
    simp only [List.map_cons, List.sum_cons, List.nodup_cons, List.forall_mem_cons]
    by_cases hkey : entry.1 ∈ keys
    · obtain ⟨hle, hiff⟩ := hrest (keys.erase entry.1)
      have hsum : ∑ key ∈ keys, firstOf (entry :: rest) key =
          entry.2 + ∑ key ∈ keys.erase entry.1, firstOf rest key := by
        rw [← Finset.add_sum_erase keys _ hkey, firstOf_cons, if_pos rfl]
        congr 1
        refine Finset.sum_congr rfl fun key hother => ?_
        rw [firstOf_cons, if_neg (Finset.ne_of_mem_erase hother).symm]
      rw [hsum, Nat.add_left_cancel_iff, hiff]
      refine ⟨Nat.add_le_add_left hle _, ?_⟩
      simp only [Finset.mem_erase, hkey, true_and, List.mem_map, not_exists, not_and]
      constructor
      · intro ⟨hkeys, hnodup⟩
        exact ⟨fun other hother => (hkeys other hother).2, fun other hother heq =>
          (hkeys other hother).1 heq, hnodup⟩
      · intro ⟨hkeys, hfresh, hnodup⟩
        exact ⟨fun other hother => ⟨hfresh other hother, hkeys other hother⟩, hnodup⟩
    · obtain ⟨hle, -⟩ := hrest keys
      have hsum : ∑ key ∈ keys, firstOf (entry :: rest) key = ∑ key ∈ keys, firstOf rest key := by
        refine Finset.sum_congr rfl fun key hother => ?_
        rw [firstOf_cons, if_neg fun heq : entry.1 = key => hkey (heq ▸ hother)]
      rw [hsum]
      exact ⟨by omega, iff_of_false (by omega) fun hboth => hkey hboth.1.1⟩

/-! ### What a histogram conserves -/

theorem sum_groups (rows : List Row) :
    ((groups session bucket rows).map Prod.snd).sum = (times rows).length := by
  have hperm := List.perm_insertionSort (· ≤ ·)
    ((times rows).map (truncated session bucket)).dedup
  unfold groups
  dsimp only
  rw [List.map_map]
  change (List.map (fun wall => List.count wall _) _).sum = _
  rw [(hperm.map _).sum_eq, List.sum_map_count_dedup_eq_length, List.length_map]

theorem mem_groups {rows : List Row} {entry : Int × Nat} :
    entry ∈ groups session bucket rows ↔ ∃ time ∈ times rows,
      (toEpoch (refloored session bucket (truncated session bucket time)),
        ((times rows).map (truncated session bucket)).count (truncated session bucket time)) =
          entry := by
  simp only [groups, List.mem_map, List.mem_insertionSort, List.mem_dedup,
    exists_exists_and_eq_and]

variable (session bucket)

/-- The buckets follow each other without a gap, there are as many as the estimate has, and
their values come to the number of rows. -/
structure Conserves (found : Option (Nat × Nat)) (total : Nat) (data : List (Int × Nat)) :
    Prop where
  increasing : (data.map Prod.fst).Pairwise (· < ·)
  contiguous : ∃ cursors : List Nat, data.map Prod.fst = cursors.map toEpoch ∧
    cursors.IsChain fun one other => nextBucket bucket one = some other
  length : (data.length : Int) = found.elim 0 fun ends => estimateBucketCount bucket ends.1 ends.2
  total : (data.map Prod.snd).sum = total

/-- Each time is counted in a bucket of the window, and no two groups in one bucket. -/
structure Covered (found : Option (Nat × Nat)) (rows : List Row) : Prop where
  inside : ∀ time ∈ times rows, ∃ ends, found = some ends ∧
    ends.1 ≤ refloored session bucket (truncated session bucket time) ∧
      refloored session bucket (truncated session bucket time) ≤ ends.2
  apart : ∀ one ∈ times rows, ∀ other ∈ times rows,
    refloored session bucket (truncated session bucket one) =
        refloored session bucket (truncated session bucket other) →
      truncated session bucket one = truncated session bucket other

variable {session bucket}

theorem nodup_groups {rows : List Row} :
    ((groups session bucket rows).map Prod.fst).Nodup ↔
      ∀ one ∈ times rows, ∀ other ∈ times rows,
        refloored session bucket (truncated session bucket one) =
            refloored session bucket (truncated session bucket other) →
          truncated session bucket one = truncated session bucket other := by
  unfold groups
  dsimp only
  have hnodup : (((times rows).map (truncated session bucket)).dedup.insertionSort
      (· ≤ ·)).Nodup := (List.perm_insertionSort _ _).nodup_iff.mpr (List.nodup_dedup _)
  rw [List.map_map, List.nodup_map_iff_inj_on hnodup]
  simp only [List.mem_insertionSort, List.mem_dedup, List.forall_mem_map, Function.comp]
  constructor
  · intro hinj one hone other hother heq
    exact hinj one hone other hother (congrArg toEpoch heq)
  · intro hinj one hone other hother heq
    exact hinj one hone other hother (toEpoch_floor_inj bucket heq)

theorem mem_walk_iff {first last time : Nat} :
    toEpoch (bucketFloor bucket time) ∈
        ((List.range' first (last + 1 - first)).map bucket.blocks.start).map toEpoch ↔
      bucket.blocks.start first ≤ bucketFloor bucket time ∧
        bucketFloor bucket time ≤ bucket.blocks.start last := by
  rw [bucketFloor_eq, ← not_lt, ← not_lt, start_lt_iff, start_lt_iff, List.map_map,
    List.mem_map]
  constructor
  · rintro ⟨index, hindex, heq⟩
    obtain ⟨hlow, hhigh⟩ := List.mem_range'_1.mp hindex
    have hsame : index = bucket.blocks.index time := by
      rcases Nat.lt_trichotomy index (bucket.blocks.index time) with hlt | hsame | hlt
      · have := toEpoch_start_lt bucket hlt
        exact absurd heq this.ne
      · exact hsame
      · have := toEpoch_start_lt bucket hlt
        exact absurd heq this.ne'
    omega
  · rintro ⟨hlow, hhigh⟩
    exact ⟨bucket.blocks.index time, List.mem_range'_1.mpr (by omega), rfl⟩

/-- A histogram conserves the rows of the list just where its window covers their times. -/
theorem histogram_conserves_iff (readers : Readers) (session : Session) (bucket : Bucket)
    (cap : Int) (request : Request) (rows filtered : List Row) (found : Option (Nat × Nat))
    (data : List (Int × Nat)) (hfiltered : dateRangeFilter readers request rows = .ok filtered)
    (hfound : window readers bucket request filtered = .ok found)
    (hdata : histogram readers session bucket cap request rows = .ok data) :
    Conserves bucket found (filtered.filter fun row => row.time.isSome).length data ↔
      Covered session bucket found filtered := by
  have htotal : (filtered.filter fun row => row.time.isSome).length = (times filtered).length := by
    rw [times, List.length_filterMap_eq_countP, List.countP_eq_length_filter]
  unfold histogram at hdata
  simp only [bind_ok] at hdata
  obtain ⟨rows', hrows, found', hwindow, hdata⟩ := hdata
  cases hfiltered.symm.trans hrows
  cases hfound.symm.trans hwindow
  rw [htotal]
  cases found with
  | none =>
    have hempty : data = [] := (pure_ok.mp hdata).symm
    subst hempty
    constructor
    · intro hconserves
      have hnone : times filtered = [] := List.length_eq_zero_iff.mp hconserves.total.symm
      constructor
      · rw [hnone]
        exact List.forall_mem_nil _
      · rw [hnone]
        exact List.forall_mem_nil _
    · intro hcovered
      refine ⟨List.Pairwise.nil, ⟨[], rfl, List.isChain_nil⟩, rfl, ?_⟩
      cases htimes : times filtered with
      | nil => rfl
      | cons time rest =>
        obtain ⟨ends, hnone, -⟩ := hcovered.inside time (htimes ▸ List.mem_cons_self)
        cases hnone
  | some ends =>
    obtain ⟨first, last, hends⟩ : ∃ first last,
        ends = (bucket.blocks.start first, bucket.blocks.start last) := by
      unfold window at hwindow
      simp only [bind_ok, pure_ok] at hwindow
      obtain ⟨_, -, _, -, hwindow⟩ := hwindow
      split at hwindow
      next start finish _ _ =>
        rw [Option.some.injEq] at hwindow
        refine ⟨bucket.blocks.index start, bucket.blocks.index finish, ?_⟩
        rw [← hwindow, bucketFloor_eq, bucketFloor_eq]
      next => cases hwindow
    subst hends
    simp only [bind_ok, pure_ok] at hdata
    obtain ⟨_, _, cursors, hwalk, rfl⟩ := hdata
    obtain ⟨hcursors, hchain⟩ := walk_start hwalk
    let value (cursor : Nat) : Int × Nat :=
      (toEpoch cursor, countsByBucket session bucket filtered (toEpoch cursor))
    have hkeys : (cursors.map value).map Prod.fst = cursors.map toEpoch := by
      rw [List.map_map]
      rfl
    have hincreasing : (cursors.map toEpoch).Pairwise (· < ·) := by
      rw [hcursors, List.map_map, List.pairwise_map]
      exact (List.pairwise_lt_range' (s := first)).imp fun hlt => toEpoch_start_lt bucket hlt
    have hsum : ((cursors.map value).map Prod.snd).sum =
        ∑ key ∈ (cursors.map toEpoch).toFinset,
          firstOf (groups session bucket filtered).reverse key := by
      rw [List.sum_toFinset _ (hincreasing.imp fun hlt => hlt.ne), List.map_map, List.map_map]
      rfl
    have hpos : ∀ entry ∈ (groups session bucket filtered).reverse, 0 < entry.2 := by
      intro entry hentry
      obtain ⟨time, htime, rfl⟩ := mem_groups.mp (List.mem_reverse.mp hentry)
      exact List.count_pos_iff.mpr (List.mem_map_of_mem htime)
    have hiff := (sum_firstOf hpos (cursors.map toEpoch).toFinset).2
    rw [List.map_reverse, List.sum_reverse, sum_groups, ← hsum, List.map_reverse,
      List.nodup_reverse, nodup_groups] at hiff
    have hinside : (∀ entry ∈ (groups session bucket filtered).reverse,
        entry.1 ∈ (cursors.map toEpoch).toFinset) ↔
        ∀ time ∈ times filtered, ∃ ends,
          some (bucket.blocks.start first, bucket.blocks.start last) = some ends ∧
            ends.1 ≤ refloored session bucket (truncated session bucket time) ∧
              refloored session bucket (truncated session bucket time) ≤ ends.2 := by
      simp only [List.mem_reverse, mem_groups, List.mem_toFinset, forall_exists_index, and_imp,
        forall_apply_eq_imp_iff₂, Option.some.injEq, exists_eq_left']
      refine forall₂_congr fun time htime => ?_
      rw [hcursors]
      exact mem_walk_iff
    constructor
    · intro hconserves
      obtain ⟨hentries, hapart⟩ := hiff.mp hconserves.total
      exact ⟨hinside.mp hentries, hapart⟩
    · intro hcovered
      refine ⟨hkeys ▸ hincreasing, ⟨cursors, hkeys, hchain⟩, ?_, ?_⟩
      · rw [List.length_map, hcursors, List.length_map, List.length_range']
        exact (estimateBucketCount_start bucket first last).symm
      · exact hiff.mpr ⟨hinside.mpr hcovered.inside, hcovered.apart⟩

/-! ### A day in April -/

theorem walk_one {first following : Nat} (hnext : nextBucket bucket first = some following) :
    walk bucket first first = .ok [first] := by
  have hlt := lt_nextBucket hnext
  rw [walk, if_pos le_rfl]
  split
  next hnone => cases hnext.symm.trans hnone
  next other hother =>
    cases hnext.symm.trans hother
    rw [walk, if_neg (not_le.mpr hlt)]
    rfl

def april15 : Nat := 739720 * day

def aprilReaders : Readers where
  digit char := if char.isDigit then some (char.toNat - 48) else none
  localize _ := none
  parseDatetime value :=
    if value.isText "2026-04-15" then .ok april15 else .error "ValueError"

def aprilRequest : Request := ⟨some (.str "2026-04-15"), some (.str "2026-04-15"), none⟩

def noonRow : Row := ⟨some (april15 + 750 * minute), some (april15 + 750 * minute)⟩

theorem aprilFiltered : dateRangeFilter aprilReaders aprilRequest [noonRow] = .ok [noonRow] := by
  rfl

theorem aprilDay_conserves :
    Conserves .day (some (april15, april15)) 1 [(1776211200, 1)] := by
  refine (histogram_conserves_iff aprilReaders ⟨id, id⟩ .day 10000 aprilRequest [noonRow] [noonRow]
    (some (april15, april15)) [(1776211200, 1)] aprilFiltered (by rfl) ?_).mpr ⟨?_, ?_⟩
  · unfold histogram
    simp only [bind_ok]
    refine ⟨[noonRow], aprilFiltered, some (april15, april15), rfl, ?_⟩
    simp only [bind_ok, pure_ok]
    exact ⟨(), rfl, [april15], walk_one rfl, rfl⟩
  · intro time htime
    rw [show times [noonRow] = [april15 + 750 * minute] from rfl, List.mem_singleton] at htime
    subst htime
    exact ⟨_, rfl, by decide, by decide⟩
  · intro one hone other hother _
    rw [show times [noonRow] = [april15 + 750 * minute] from rfl, List.mem_singleton]
      at hone hother
    rw [hone, hother]

/-- By the hour the day is over with its first bucket, and the row is lost. -/
theorem aprilHours_lose : ¬∀ (readers : Readers) (session : Session) (bucket : Bucket) (cap : Int)
    (request : Request) (rows filtered : List Row) (found : Option (Nat × Nat))
    (data : List (Int × Nat)), dateRangeFilter readers request rows = .ok filtered →
    window readers bucket request filtered = .ok found →
    histogram readers session bucket cap request rows = .ok data →
    Conserves bucket found (filtered.filter fun row => row.time.isSome).length data := by
  intro hall
  have hdata : histogram aprilReaders ⟨id, id⟩ .hour 10000 aprilRequest [noonRow] =
      .ok [(1776211200, 0)] := by
    unfold histogram
    simp only [bind_ok]
    refine ⟨[noonRow], aprilFiltered, some (april15, april15), rfl, ?_⟩
    simp only [bind_ok, pure_ok]
    exact ⟨(), rfl, [april15], walk_one rfl, rfl⟩
  have hconserves := hall aprilReaders ⟨id, id⟩ .hour 10000 aprilRequest [noonRow] [noonRow]
    (some (april15, april15)) _ aprilFiltered rfl hdata
  cases hconserves.total

end DjangoMojo.Rest.Histogram
