import DjangoMojo.Metrics.Series
import Mathlib.Algebra.BigOperators.Group.List.Basic
import Mathlib.Algebra.Ring.Int.Defs
import Mathlib.Data.List.Nodup

/-! # Records that are fetched once

A fetch over a range gives back what was recorded in it, when the walk over the range comes through
every bucket that a time of the range is in. It starts from an unaligned time and keeps the offset
of that, so it can end a bucket short, and it can step over a week that the turn of the year cuts.
-/

namespace DjangoMojo.Metrics

open Foundation

/-! ### What is recorded -/

namespace Store

def Numeric (store : Store) : Prop := ∀ key text, store key ≠ some (.text text)

def value (store : Store) (key : String) : Int :=
  match store key with
  | some (.number value) => value
  | _ => 0

theorem Numeric.count_eq {store : Store} (hnumeric : store.Numeric) (key : String) :
    store.count key = some (store.value key) := by
  unfold Store.count Store.value
  cases hentry : store key with
  | none => rfl
  | some entry =>
    cases entry with
    | number value => rfl
    | text value => exact absurd hentry (hnumeric key value)

theorem Numeric.increment {store : Store} (hnumeric : store.Numeric) (key : String) (count : Int) :
    (store.increment key count).Numeric ∧ ∀ other,
      (store.increment key count).value other = store.value other + if other = key then count else 0 := by
  obtain ⟨value, hvalue, hwritten⟩ : ∃ value, store.value key = value ∧
      store.increment key count = store.write key (.number (value + count)) := by
    unfold Store.value Store.increment
    cases hentry : store key with
    | none => exact ⟨0, rfl, by rw [Int.zero_add]⟩
    | some entry =>
      cases entry with
      | number value => exact ⟨value, rfl, rfl⟩
      | text value => exact absurd hentry (hnumeric key value)
  rw [hwritten]
  refine ⟨fun other text htext => ?_, fun other => ?_⟩
  · by_cases hother : other = key
    · rw [hother, write_self] at htext
      cases htext
    · rw [write_of_ne hother] at htext
      exact hnumeric other text htext
  · by_cases hother : other = key
    · rw [hother, if_pos rfl, hvalue]
      rw [Store.value, write_self]
    · rw [if_neg hother, Int.add_zero, Store.value, write_of_ne hother, Store.value]

end Store

theorem nodup_granularities (call : Record) : call.granularities.Nodup := by
  have hall : allGranularities.Nodup := by decide
  unfold Record.granularities generateGranularities
  dsimp only
  split
  · exact List.nodup_nil
  · exact (hall.sublist (List.take_sublist _ _)).sublist (List.drop_sublist _ _)

theorem value_record {store : Store} (hnumeric : store.Numeric) (account slug : String)
    (call : Record) {granularity : Granularity} (hgranularity : granularity ∈ call.granularities)
    (wall : Nat) : (record store account slug call).Numeric ∧
      (record store account slug call).value (counterKey account slug granularity wall) =
        store.value (counterKey account slug granularity wall) +
          if dateSlug granularity wall = dateSlug granularity call.time.wall then call.count else 0 := by
  have hfold : ∀ listed : List Granularity, listed.Nodup → ∀ store : Store, store.Numeric →
      (listed.foldl (fun store granularity =>
        store.increment (counterKey account slug granularity call.time.wall) call.count)
        store).Numeric ∧
      (listed.foldl (fun store granularity =>
        store.increment (counterKey account slug granularity call.time.wall) call.count)
        store).value (counterKey account slug granularity wall) =
        store.value (counterKey account slug granularity wall) +
          if granularity ∈ listed ∧
            dateSlug granularity wall = dateSlug granularity call.time.wall then call.count else 0 := by
    intro listed
    induction listed with
    | nil =>
      intro _ store hnumeric
      refine ⟨hnumeric, ?_⟩
      rw [if_neg fun hboth => absurd hboth.1 List.not_mem_nil, Int.add_zero]
      rfl
    | cons first rest ih =>
      intro hnodup store hnumeric
      obtain ⟨hfirst, hrest⟩ := List.nodup_cons.mp hnodup
      obtain ⟨hnext, hvalue⟩ := hnumeric.increment
        (counterKey account slug first call.time.wall) call.count
      obtain ⟨hlast, htotal⟩ := ih hrest _ hnext
      refine ⟨hlast, htotal.trans ?_⟩
      rw [hvalue]
      by_cases hsame : granularity = first
      · subst hsame
        have hkey : counterKey account slug granularity wall =
            counterKey account slug granularity call.time.wall ↔
            dateSlug granularity wall = dateSlug granularity call.time.wall := by
          refine ⟨fun hkey => (counterKey_inj hkey).2.2.2, fun hdate => ?_⟩
          unfold counterKey generateSlug
          rw [hdate]
        simp [hkey, hfirst]
      · have hkey : counterKey account slug granularity wall ≠
            counterKey account slug first call.time.wall :=
          fun hkey => hsame (counterKey_inj hkey).2.2.1
        simp [hkey, hsame]
  obtain ⟨hnext, hvalue⟩ := hfold call.granularities (nodup_granularities call) store hnumeric
  refine ⟨hnext, hvalue.trans ?_⟩
  simp [hgranularity]

/-! ### What is fetched -/

def ListsOnce (granularity : Granularity) (walls : List Nat) (time : Nat) : Prop :=
  (walls.filter fun wall => dateSlug granularity wall = dateSlug granularity time).length = 1

theorem sum_zeros (walls : List Nat) : (walls.map fun _ => (0 : Int)).sum = 0 := by
  induction walls with
  | nil => rfl
  | cons first rest ih => rw [List.map_cons, List.sum_cons, ih, Int.add_zero]

theorem sum_matches (walls : List Nat) (values : Nat → Int) (holds : Nat → Bool) (count : Int) :
    (walls.map fun wall => values wall + if holds wall then count else 0).sum =
      (walls.map values).sum + (walls.filter holds).length * count := by
  induction walls with
  | nil => simp
  | cons first rest ih =>
    rw [List.map_cons, List.sum_cons, ih, List.map_cons, List.sum_cons, List.filter_cons]
    by_cases hfirst : holds first
    · rw [if_pos hfirst, if_pos hfirst, List.length_cons, Int.natCast_succ, Int.add_mul]
      omega
    · rw [if_neg hfirst, if_neg hfirst]
      omega

theorem sum_recordAll (granularity : Granularity) (walls : List Nat) (account slug : String)
    (calls : List Record) (hcalls : ∀ call ∈ calls, granularity ∈ call.granularities ∧
      ListsOnce granularity walls call.time.wall) {store : Store} (hnumeric : store.Numeric) :
    (recordAll store account slug calls).Numeric ∧
      (walls.map fun wall => (recordAll store account slug calls).value
        (counterKey account slug granularity wall)).sum =
      (walls.map fun wall => store.value (counterKey account slug granularity wall)).sum +
        (calls.map Record.count).sum := by
  induction calls generalizing store with
  | nil => exact ⟨hnumeric, by simp [recordAll]⟩
  | cons call rest ih =>
    obtain ⟨hgranularity, honce⟩ := hcalls call List.mem_cons_self
    have hone := value_record hnumeric account slug call hgranularity
    obtain ⟨hlast, hsum⟩ := ih (fun other hother => hcalls other (List.mem_cons_of_mem _ hother))
      (hone 0).1
    refine ⟨hlast, hsum.trans ?_⟩
    have hmatches := sum_matches walls
      (fun wall => store.value (counterKey account slug granularity wall))
      (fun wall => dateSlug granularity wall = dateSlug granularity call.time.wall) call.count
    simp only [decide_eq_true_eq] at hmatches
    simp only [fun wall => (hone wall).2]
    rw [hmatches, honce, List.map_cons, List.sum_cons]
    omega

theorem mapM_count {store : Store} (hnumeric : store.Numeric) (keys : List String) :
    keys.mapM store.count = some (keys.map store.value) := by
  induction keys with
  | nil => rfl
  | cons key rest ih =>
    rw [List.mapM_cons, hnumeric.count_eq, ih]
    rfl

/-! ### The condition -/

/-- Whatever is recorded in a range is fetched with it, once. -/
def FetchedOnce (zone : Int → Int) (account slug : String) (first last : Aware)
    (granularity : Granularity) : Prop :=
  ∀ (now : Aware) (calls : List Record), (∀ call ∈ calls, call.time.In zone ∧
      first.instant ≤ call.time.instant ∧ call.time.instant ≤ last.instant ∧
      granularity ∈ call.granularities ∧ 0 < call.count) →
    ∃ values, fetch (recordAll (fun _ => none) account slug calls) now account slug (some first)
      (some last) granularity = some values ∧ values.sum = (calls.map Record.count).sum

def rangeEnd (first last : Aware) (granularity : Granularity) : Nat :=
  granularity.lastStep first.wall (last.instant + first.offset).toNat

/-- There is a step after the end of the walk; and a time of the range is of a slug with a name, in
none of the units before the first one or after the last one, and of the year of the step that
comes into its week. -/
structure Meets (zone : Int → Int) (slug : String) (first last : Aware) (granularity : Granularity) :
    Prop where
  steps : first.instant ≤ last.instant → (granularity.next (rangeEnd first last granularity)).isSome
  named : ∀ time : Aware, time.In zone → first.instant ≤ time.instant →
    time.instant ≤ last.instant → slug ≠ ""
  notBefore : ∀ time : Aware, time.In zone → first.instant ≤ time.instant →
    time.instant ≤ last.instant → granularity.blocks.index first.wall ≤
      granularity.blocks.index time.wall
  notAfter : ∀ time : Aware, time.In zone → first.instant ≤ time.instant →
    time.instant ≤ last.instant → granularity.blocks.index time.wall ≤
      granularity.blocks.index (rangeEnd first last granularity)
  year : granularity = .weeks → ∀ time : Aware, time.In zone → first.instant ≤ time.instant →
    time.instant ≤ last.instant → yearOf time.wall = yearOf (first.wall +
      (granularity.blocks.index time.wall - granularity.blocks.index first.wall) * (7 * day))

section Condition

variable {zone : Int → Int} {account slug : String} {first last : Aware} {granularity : Granularity}

theorem bound_eq (hrange : first.instant ≤ last.instant) :
    last.instant + first.offset = ((last.instant + first.offset).toNat : Int) ∧
      first.wall ≤ (last.instant + first.offset).toNat := by
  have hfirst : first.instant = first.wall - first.offset := rfl
  omega

theorem fetch_range (store : Store) (now : Aware) (hnumeric : store.Numeric) :
    fetch store now account slug (some first) (some last) granularity =
      (rangeWalls granularity first.offset last.instant first.wall).map fun walls =>
        walls.map fun wall => store.value
          (counterKey account (if slug = "" then "no_slugs_found" else slug) granularity wall) := by
  unfold fetch getDateRange rangeKeys
  dsimp only [Option.bind_some]
  cases rangeWalls granularity first.offset last.instant first.wall with
  | none => rfl
  | some walls =>
    rw [Option.map_some, Option.bind_some, mapM_count hnumeric, List.map_map]
    rfl

/-- Under the condition, the walk lists the bucket of each time of the range once. -/
theorem Meets.listsOnce (hmeets : Meets zone slug first last granularity)
    (hrange : first.instant ≤ last.instant) :
    ∃ walls, rangeWalls granularity first.offset last.instant first.wall = some walls ∧
      ∀ time : Aware, time.In zone → first.instant ≤ time.instant → time.instant ≤ last.instant →
        ListsOnce granularity walls time.wall := by
  obtain ⟨hbound, hle⟩ := bound_eq hrange
  obtain ⟨walls, hwalls, hindices, hplaces⟩ := (walked granularity hbound hle).visited
    (hmeets.steps hrange)
  refine ⟨walls, hwalls, fun time hzone hfrom hto => ?_⟩
  have hnotBefore := hmeets.notBefore time hzone hfrom hto
  have hnotAfter := hmeets.notAfter time hzone hfrom hto
  have hlisted : granularity.blocks.index time.wall ∈ walls.map granularity.blocks.index := by
    rw [hindices, List.mem_range'_1]
    unfold rangeEnd at hnotAfter
    omega
  obtain ⟨visited, hvisited, hindex⟩ := List.mem_map.mp hlisted
  have hsame : dateSlug granularity visited = dateSlug granularity time.wall := by
    rw [dateSlug_eq_iff]
    refine ⟨hindex, fun hweeks => ?_⟩
    rw [hmeets.year hweeks time hzone hfrom hto, ← hindex]
    subst hweeks
    rw [← hplaces (7 * day) rfl visited hvisited]
  -- No two times of the walk are in one unit.
  have hnodup : (walls.map granularity.blocks.index).Nodup := by
    rw [hindices]
    exact List.nodup_range'
  have hfilter : walls.filter (fun wall => dateSlug granularity wall =
      dateSlug granularity time.wall) = [visited] := by
    have hunique : (walls.filter fun wall => dateSlug granularity wall =
        dateSlug granularity time.wall).Nodup := (List.Nodup.of_map _ hnodup).filter _
    refine List.perm_singleton.mp ((List.perm_ext_iff_of_nodup hunique
      (List.nodup_singleton visited)).mpr fun wall => ?_)
    rw [List.mem_filter, List.mem_singleton, decide_eq_true_eq]
    constructor
    · rintro ⟨hmem, hdate⟩
      refine List.inj_on_of_nodup_map hnodup hmem hvisited ?_
      exact (dateSlug_eq_iff.mp (hdate.trans hsame.symm)).1
    · rintro rfl
      exact ⟨hvisited, hsame⟩
  rw [ListsOnce, hfilter, List.length_singleton]

theorem Meets.fetchedOnce (hmeets : Meets zone slug first last granularity) :
    FetchedOnce zone account slug first last granularity := by
  intro now calls hcalls
  have hempty : Store.Numeric fun _ => none := fun _ _ htext => nomatch htext
  by_cases hrange : first.instant ≤ last.instant
  · obtain ⟨walls, hwalls, hlists⟩ := hmeets.listsOnce hrange
    obtain ⟨hnumeric, hsum⟩ := sum_recordAll granularity walls account
      slug calls (fun call hcall => by
        obtain ⟨hzone, hfrom, hto, hgranularity, -⟩ := hcalls call hcall
        exact ⟨hgranularity, hlists call.time hzone hfrom hto⟩) hempty
    rw [fetch_range _ now hnumeric, hwalls]
    refine ⟨_, rfl, ?_⟩
    cases calls with
    | nil => exact sum_zeros walls
    | cons call rest =>
      obtain ⟨hzone, hfrom, hto, -, -⟩ := hcalls call List.mem_cons_self
      rw [if_neg (hmeets.named call.time hzone hfrom hto), hsum]
      exact (congrArg (· + _) (sum_zeros walls)).trans (Int.zero_add _)
  · have hnone : calls = [] := by
      rw [List.eq_nil_iff_forall_not_mem]
      intro call hcall
      obtain ⟨-, hfrom, hto, -, -⟩ := hcalls call hcall
      exact hrange (hfrom.trans hto)
    subst hnone
    have hwalls : rangeWalls granularity first.offset last.instant first.wall = some [] :=
      rangeWalls_empty (not_le.mp hrange)
    have hfetch := @fetch_range account slug first last granularity
      (recordAll (fun _ => none) account slug []) now hempty
    rw [hwalls] at hfetch
    exact ⟨[], hfetch, rfl⟩

theorem FetchedOnce.listsOnce (hfetched : FetchedOnce zone account slug first last granularity)
    {time : Aware} (hzone : time.In zone) (hfrom : first.instant ≤ time.instant)
    (hto : time.instant ≤ last.instant) : slug ≠ "" ∧ ∃ walls,
      rangeWalls granularity first.offset last.instant first.wall = some walls ∧
      ListsOnce granularity walls time.wall := by
  have hempty : Store.Numeric fun _ => none := fun _ _ htext => nomatch htext
  let call : Record := { time, count := 1, least := granularity, greatest := granularity }
  have hgranularity : granularity ∈ call.granularities := by
    have hself : ∀ least, least ∈ (generateGranularities least least).getD [] := by
      intro least
      cases least <;> decide
    exact hself granularity
  obtain ⟨values, hvalues, hsum⟩ := hfetched time [call] fun other hother => by
    rw [List.mem_singleton.mp hother]
    exact ⟨hzone, hfrom, hto, hgranularity, Int.one_pos⟩
  have hrecord := value_record hempty account slug call hgranularity
  change fetch (record (fun _ => none) account slug call) _ _ _ _ _ _ = _ at hvalues
  rw [fetch_range _ time (hrecord 0).1] at hvalues
  obtain ⟨walls, hwalls, rfl⟩ := Option.map_eq_some_iff.mp hvalues
  by_cases hslug : slug = ""
  · -- The fetch reads another slug, which nothing was recorded for.
    exfalso
    have hother : ∀ wall wall' granularity', counterKey account "no_slugs_found" granularity wall ≠
        counterKey account slug granularity' wall' := by
      intro wall wall' granularity' heq
      have hnames := (counterKey_inj heq).2.1
      rw [hslug] at hnames
      exact absurd hnames (by decide)
    have hnothing : ∀ wall, (record (fun _ => none) account slug call).value
        (counterKey account "no_slugs_found" granularity wall) = 0 := by
      intro wall
      rw [Store.value, record_of_ne (hother wall _)]
    rw [if_pos hslug] at hsum
    simp only [hnothing] at hsum
    rw [sum_zeros] at hsum
    cases hsum
  · refine ⟨hslug, walls, hwalls, ?_⟩
    rw [if_neg hslug] at hsum
    have hmatches := sum_matches walls
      (fun wall => Store.value (fun _ => none) (counterKey account slug granularity wall))
      (fun wall => dateSlug granularity wall = dateSlug granularity time.wall) 1
    have hzero : ∀ key, Store.value (fun _ => none) key = 0 := fun _ => rfl
    simp only [decide_eq_true_eq, hzero] at hmatches
    simp only [fun wall => (hrecord wall).2, hzero] at hsum
    have hcount : (([call].map Record.count).sum : Int) = 1 := by rfl
    rw [hmatches, sum_zeros, Int.zero_add, Int.mul_one, hcount] at hsum
    exact Int.ofNat_inj.mp hsum

/-- A time whose bucket is listed is in a unit of the walk, and in the year of its step. -/
theorem mem_of_listsOnce (hrange : first.instant ≤ last.instant) {walls : List Nat}
    (hwalls : rangeWalls granularity first.offset last.instant first.wall = some walls) {time : Nat}
    (honce : ListsOnce granularity walls time) :
    granularity.blocks.index first.wall ≤ granularity.blocks.index time ∧
      granularity.blocks.index time ≤ granularity.blocks.index (rangeEnd first last granularity) ∧
      (granularity = .weeks → yearOf time = yearOf (first.wall +
        (granularity.blocks.index time - granularity.blocks.index first.wall) * (7 * day))) := by
  obtain ⟨hbound, hle⟩ := bound_eq hrange
  have hwalked := walked granularity hbound hle
  have hsome : (granularity.next (granularity.lastStep first.wall
      (last.instant + first.offset).toNat)).isSome := by
    by_contra hnone
    have hraised := hwalked.raised (by simpa using hnone)
    rw [hwalls] at hraised
    cases hraised
  obtain ⟨visited, hvisited, hindices, hplaces⟩ := hwalked.visited hsome
  cases hwalls.symm.trans hvisited
  have hmatch : (walls.filter fun wall => dateSlug granularity wall = dateSlug granularity time) ≠ [] := by
    intro hnil
    rw [ListsOnce, hnil] at honce
    cases honce
  obtain ⟨wall, hwall⟩ := List.exists_mem_of_ne_nil _ hmatch
  rw [List.mem_filter, decide_eq_true_eq, dateSlug_eq_iff] at hwall
  obtain ⟨hmem, hindex, hyear⟩ := hwall
  have hlisted : granularity.blocks.index wall ∈ walls.map granularity.blocks.index :=
    List.mem_map_of_mem hmem
  rw [hindices, List.mem_range'_1, hindex] at hlisted
  unfold rangeEnd
  refine ⟨hlisted.1, by omega, fun hweeks => ?_⟩
  rw [← hyear hweeks, ← hindex]
  subst hweeks
  rw [← hplaces (7 * day) rfl wall hmem]

theorem FetchedOnce.meets (hfetched : FetchedOnce zone account slug first last granularity) :
    Meets zone slug first last granularity := by
  have hunits : ∀ time : Aware, time.In zone → first.instant ≤ time.instant →
      time.instant ≤ last.instant →
      granularity.blocks.index first.wall ≤ granularity.blocks.index time.wall ∧
        granularity.blocks.index time.wall ≤
          granularity.blocks.index (rangeEnd first last granularity) ∧
        (granularity = .weeks → yearOf time.wall = yearOf (first.wall + (granularity.blocks.index
          time.wall - granularity.blocks.index first.wall) * (7 * day))) := by
    intro time hzone hfrom hto
    obtain ⟨-, walls, hwalls, honce⟩ := hfetched.listsOnce hzone hfrom hto
    exact mem_of_listsOnce (hfrom.trans hto) hwalls honce
  refine ⟨fun hrange => ?_, fun time hzone hfrom hto => ?_, fun time hzone hfrom hto => ?_,
    fun time hzone hfrom hto => ?_, fun hweeks time hzone hfrom hto => ?_⟩
  · obtain ⟨hbound, hle⟩ := bound_eq hrange
    obtain ⟨values, hvalues, -⟩ := hfetched first [] fun _ hmem => absurd hmem List.not_mem_nil
    have hempty : Store.Numeric fun _ => none := fun _ _ htext => nomatch htext
    change fetch (fun _ => none) _ _ _ _ _ _ = _ at hvalues
    rw [fetch_range _ first hempty] at hvalues
    by_contra hnone
    have hraised := (walked granularity hbound hle).raised (by simpa [rangeEnd] using hnone)
    rw [hraised] at hvalues
    cases hvalues
  · exact (hfetched.listsOnce hzone hfrom hto).1
  · exact (hunits time hzone hfrom hto).1
  · exact (hunits time hzone hfrom hto).2.1
  · exact (hunits time hzone hfrom hto).2.2 hweeks

end Condition

/-- Records of a range are fetched once with it exactly under the condition. -/
theorem fetchedOnce_iff_meets (zone : Int → Int) (account slug : String) (first last : Aware)
    (granularity : Granularity) :
    FetchedOnce zone account slug first last granularity ↔ Meets zone slug first last granularity :=
  ⟨FetchedOnce.meets, Meets.fetchedOnce⟩

/-! ### Ranges that miss a bucket -/

def clock (hours minutes : Nat) (hvalid : hours * hour + minutes * minute < wallEnd) : Aware where
  wall := hours * hour + minutes * minute
  offset := 0
  valid := hvalid

def noon (date : Nat) (hvalid : date * day + 12 * hour < wallEnd) : Aware where
  wall := date * day + 12 * hour
  offset := 0
  valid := hvalid

/-- Hours from 10:50 to 11:10: the walk visits 10:50, and 11:50 is beyond the end. Weeks from
28 December to 4 January, both Fridays: the walk steps over the last two days of the year, which
have a week of their own. -/
theorem not_fetchedOnce :
    ¬ FetchedOnce (fun _ => 0) "global" "logins" (clock 10 50 (by decide)) (clock 11 10 (by decide))
        .hours ∧
      ¬ FetchedOnce (fun _ => 0) "global" "logins" (noon 361 (by decide)) (noon 368 (by decide))
        .weeks := by
  refine ⟨fun hfetched => ?_, fun hfetched => ?_⟩
  · have hmissed := hfetched.meets.notAfter (clock 11 10 (by decide)) rfl (by decide) (by decide)
    exact absurd hmissed (by decide)
  · have hcut := hfetched.meets.year rfl (noon 363 (by decide)) rfl (by decide) (by decide)
    exact absurd hcut (by decide)

end DjangoMojo.Metrics
