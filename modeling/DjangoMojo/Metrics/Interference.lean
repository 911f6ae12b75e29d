import DjangoMojo.Foundation.Table
import DjangoMojo.Metrics.PreviousBucket
import DjangoMojo.Metrics.Series
import Mathlib.Data.List.Dedup

/-! # Series that leave each other alone

A call for one account and slug reads and writes the keys that are built from them. Two slugs can
share a key, since a colon is written as a bar; a deletion scans for every key that its slug begins;
and the entries of a set of slugs are named by their last segments.
-/

namespace DjangoMojo.Metrics

open Foundation

/-! ### Reads of one series -/

/-- `fetch_values` of one slug: its value and, on demand, the one before. -/
def fetchValues (store : Store) (account slug : String) (time : Aware) (granularity : Granularity)
    (withDelta : Bool) : Option (Int × Option Int) :=
  (store.count (counterKey account slug granularity time.wall)).bind fun value =>
    if withDelta then
      (previousBucket time granularity).bind fun previous =>
        (store.count (counterKey account slug granularity previous.wall)).map fun before =>
          (value, some before)
    else some (value, none)

inductive Reading where
  | fetch (now : Aware) (first last : Option Aware) (granularity : Granularity)
  | values (time : Aware) (granularity : Granularity) (withDelta : Bool)
  | gauge

inductive Answer where
  | series (values : Option (List Int))
  | values (values : Option (Int × Option Int))
  | gauge (value : Option String)

def Reading.answer (store : Store) (account slug : String) : Reading → Answer
  | fetch now first last granularity =>
    .series (Metrics.fetch store now account slug first last granularity)
  | values time granularity withDelta =>
    .values (fetchValues store account slug time granularity withDelta)
  | gauge => .gauge (getValue store account slug)

/-! ### Calls -/

inductive Call where
  | record (call : Record)
  | setValue (value : String)
  | delete

def Call.apply (glob : Glob) (store : Store) (account slug : String) : Call → Store
  | record call => Metrics.record store account slug call
  | setValue value => Metrics.setValue store account slug value
  | delete => deleteMetricsSlug glob store account slug

abbrev Name := { text : String // text ≠ "" }

def run (glob : Glob) (calls : List (Name × Name × Call)) : Store :=
  calls.foldl (fun store (account, slug, call) => call.apply glob store account slug) fun _ => none

/-- After any calls, a call for the first series changes nothing that is read of the second. -/
def Undisturbed (glob : Glob) (account slug other known : Name) : Prop :=
  ∀ calls call reading,
    Reading.answer (Call.apply glob (run glob calls) account slug call) other known reading =
      Reading.answer (run glob calls) other known reading

/-- The series have keys of their own, and the deletion of the first one scans for no key of the
second. -/
structure Apart (glob : Glob) (account slug other known : Name) : Prop where
  named : ¬ (account = other ∧ normalizeSlug slug = normalizeSlug known)
  counters : ∀ granularity (time : Aware),
    glob (deletePattern account slug) (counterKey other known granularity time.wall) = false
  gauge : glob (deletePattern account slug) (gaugeKey other known) = false

/-! ### What a read depends on -/

structure SameSeries (store next : Store) (account slug : String) : Prop where
  counters : ∀ granularity (time : Aware), next (counterKey account slug granularity time.wall) =
    store (counterKey account slug granularity time.wall)
  gauge : next (gaugeKey account slug) = store (gaugeKey account slug)

theorem count_congr {store next : Store} {key : String} (hsame : next key = store key) :
    next.count key = store.count key := by
  rw [Store.count, Store.count, hsame]

theorem mapM_count_congr {store next : Store} {keys : List String}
    (hsame : ∀ key ∈ keys, next key = store key) :
    keys.mapM next.count = keys.mapM store.count := by
  induction keys with
  | nil => rfl
  | cons key rest ih =>
    rw [List.mapM_cons, List.mapM_cons, count_congr (hsame key List.mem_cons_self),
      ih fun other hother => hsame other (List.mem_cons_of_mem _ hother)]

theorem SameSeries.fetch {store next : Store} {account slug : Name}
    (hsame : SameSeries store next account slug) (now : Aware) (first last : Option Aware)
    (granularity : Granularity) :
    Metrics.fetch next now account slug first last granularity =
      Metrics.fetch store now account slug first last granularity := by
  unfold Metrics.fetch
  rw [if_neg slug.property]
  refine Option.bind_congr fun range _ => Option.bind_congr fun keys hkeys => ?_
  obtain ⟨walls, hwalls, rfl⟩ := Option.map_eq_some_iff.mp hkeys
  refine mapM_count_congr fun key hkey => ?_
  obtain ⟨wall, hwall, rfl⟩ := List.mem_map.mp hkey
  have hvalid := rangeWalls_lt range.1.valid hwalls wall hwall
  exact hsame.counters granularity ⟨wall, 0, hvalid⟩

theorem SameSeries.fetchValues {store next : Store} {account slug : String}
    (hsame : SameSeries store next account slug) (time : Aware) (granularity : Granularity)
    (withDelta : Bool) : Metrics.fetchValues next account slug time granularity withDelta =
      Metrics.fetchValues store account slug time granularity withDelta := by
  unfold Metrics.fetchValues
  rw [count_congr (hsame.counters granularity time)]
  refine Option.bind_congr fun value _ => ?_
  split
  · refine Option.bind_congr fun previous _ => ?_
    rw [count_congr (hsame.counters granularity previous)]
  · rfl

theorem SameSeries.answer {store next : Store} {account slug : Name}
    (hsame : SameSeries store next account slug) (reading : Reading) :
    reading.answer next account slug = reading.answer store account slug := by
  cases reading with
  | fetch now first last granularity =>
    exact congrArg Answer.series (hsame.fetch now first last granularity)
  | values time granularity withDelta =>
    exact congrArg Answer.values (hsame.fetchValues time granularity withDelta)
  | gauge =>
    change Answer.gauge (getValue next account slug) = Answer.gauge (getValue store account slug)
    rw [getValue, getValue, hsame.gauge]

/-! ### Calls for another series -/

section Series

variable {glob : Glob} {account slug other known : Name}

theorem Apart.sameSeries (hapart : Apart glob account slug other known) (store : Store)
    (call : Call) : SameSeries store (call.apply glob store account slug) other known := by
  cases call with
  | record call =>
    refine ⟨fun granularity time => record_of_ne fun granularity' heq => ?_,
      record_of_ne fun granularity' heq => ?_⟩
    · obtain ⟨haccount, hslug, -⟩ := counterKey_inj heq
      exact hapart.named ⟨Subtype.ext haccount.symm, hslug.symm⟩
    · exact counterKey_ne_gaugeKey _ _ _ _ _ _ heq.symm
  | setValue value =>
    refine ⟨fun granularity time => ?_, ?_⟩
    · exact Store.write_of_ne (counterKey_ne_gaugeKey _ _ _ _ _ _) _
    · refine Store.write_of_ne (fun heq => ?_) _
      obtain ⟨haccount, hslug⟩ := gaugeKey_inj heq
      exact hapart.named ⟨Subtype.ext haccount.symm, hslug.symm⟩
  | delete =>
    refine ⟨fun granularity time => ?_, ?_⟩
    · change (if glob _ _ then none else store _) = _
      rw [hapart.counters, if_neg Bool.false_ne_true]
    · change (if glob _ _ then none else store _) = _
      rw [hapart.gauge, if_neg Bool.false_ne_true]

theorem count_recordOne (store : Store) (account slug : String) (granularity : Granularity)
    (time : Aware) (habsent : store (counterKey account slug granularity time.wall) = none) :
    record store account slug { time, least := granularity, greatest := granularity }
      (counterKey account slug granularity time.wall) = some (.number 1) := by
  have hself : ∀ least, (generateGranularities least least).getD [] = [least] := by
    intro least
    cases least <;> rfl
  have hlisted : Record.granularities { time, least := granularity, greatest := granularity } =
      [granularity] := hself granularity
  rw [record, hlisted, List.foldl_cons, List.foldl_nil, Store.increment, habsent]
  exact Store.write_self _ _ _

theorem Undisturbed.apart (hundisturbed : Undisturbed glob account slug other known) :
    Apart glob account slug other known := by
  refine ⟨fun hnames => ?_, fun granularity time => ?_, ?_⟩
  · -- A record of the first slug is one of the second.
    obtain ⟨haccount, hslug⟩ := hnames
    let time : Aware := ⟨0, 0, by decide⟩
    have hkey : counterKey account slug .hours time.wall = counterKey other known .hours time.wall := by
      unfold counterKey generateSlug generateSlugPrefix
      rw [haccount, hslug]
    have hread := hundisturbed [] (.record { time, least := .hours, greatest := .hours })
      (.values time .hours false)
    have hone := count_recordOne (fun _ => none) account slug .hours time rfl
    rw [hkey] at hone
    simp only [Reading.answer, fetchValues, Call.apply, Store.count, run, List.foldl_nil, hone]
      at hread
    cases hread
  · by_contra hmatch
    rw [Bool.not_eq_false] at hmatch
    have hread := hundisturbed
      [(other, known, .record { time, least := granularity, greatest := granularity })] .delete
      (.values time granularity false)
    have hone := count_recordOne (fun _ => none) other known granularity time rfl
    simp only [Reading.answer, fetchValues, Call.apply, Store.count, run, List.foldl_cons,
      List.foldl_nil, deleteMetricsSlug, hmatch, hone] at hread
    cases hread
  · by_contra hmatch
    rw [Bool.not_eq_false] at hmatch
    have hread := hundisturbed [(other, known, .setValue "")] .delete .gauge
    simp only [Reading.answer, getValue, Call.apply, run, List.foldl_cons, List.foldl_nil,
      deleteMetricsSlug, hmatch, setValue, Store.write_self] at hread
    cases hread

theorem undisturbed_iff : Undisturbed glob account slug other known ↔
    Apart glob account slug other known :=
  ⟨Undisturbed.apart, fun hapart _ call reading => (hapart.sameSeries _ call).answer reading⟩

end Series

/-! ### Sets of slugs -/

/-- `slug.split(":")[-1]`. -/
def lastSegment (slug : String) : String :=
  String.ofList (slug.toList.reverse.takeWhile (· ≠ ':')).reverse

/-- `fetch` of several slugs, without labels. -/
def fetchSet (store : Store) (now : Aware) (account : String) (slugs : List String)
    (first last : Option Aware) (granularity : Granularity) : Option (Table String (List Int)) :=
  slugs.foldlM (fun entries slug =>
    (fetch store now account slug first last granularity).map fun values =>
      entries.put (lastSegment slug) values) .empty

/-- Each slug has an entry with its own values, and no two of them share one. -/
def SeparateEntries (slugs : List String) : Prop :=
  ∀ store now account first last granularity entries,
    fetchSet store now account slugs first last granularity = some entries →
    entries.count = slugs.length ∧ ∀ slug ∈ slugs, ∃ values,
      fetch store now account slug first last granularity = some values ∧
        entries.get (lastSegment slug) = some values

section Sets

variable {store : Store} {now : Aware} {account : String} {first last : Option Aware}
  {granularity : Granularity}

theorem entries_of_foldlM {slugs : List String} {start entries : Table String (List Int)}
    (hentries : slugs.foldlM (fun entries slug =>
      (fetch store now account slug first last granularity).map fun values =>
        entries.put (lastSegment slug) values) start = some entries) :
    (∀ key, key ∈ entries.keys ↔ key ∈ start.keys ∨ key ∈ slugs.map lastSegment) ∧
      (∀ key, key ∉ slugs.map lastSegment → entries.get key = start.get key) ∧
      ((slugs.map lastSegment).Nodup → ∀ slug ∈ slugs, ∃ values,
        fetch store now account slug first last granularity = some values ∧
          entries.get (lastSegment slug) = some values) := by
  induction slugs generalizing start with
  | nil =>
    cases hentries
    refine ⟨fun key => by simp, fun key _ => rfl, fun _ slug hslug => ?_⟩
    exact absurd hslug List.not_mem_nil
  | cons slug rest ih =>
    rw [List.foldlM_cons] at hentries
    obtain ⟨next, hnext, hrest⟩ := Option.bind_eq_some_iff.mp hentries
    obtain ⟨values, hvalues, rfl⟩ := Option.map_eq_some_iff.mp hnext
    obtain ⟨hkeys, hothers, heach⟩ := ih hrest
    refine ⟨fun key => ?_, fun key hkey => ?_, fun hnodup known hknown => ?_⟩
    · rw [hkeys, Table.mem_keys, Table.get_put, List.map_cons, List.mem_cons, Table.mem_keys]
      split
      next heq => simp [heq]
      next hne => simp [hne]
    · rw [List.map_cons, List.mem_cons, not_or] at hkey
      rw [hothers key hkey.2, Table.get_put, if_neg hkey.1]
    · obtain ⟨hslug, hnodup⟩ := List.nodup_cons.mp hnodup
      rcases List.mem_cons.mp hknown with rfl | hmem
      · exact ⟨values, hvalues, by rw [hothers _ hslug, Table.get_put, if_pos rfl]⟩
      · exact heach hnodup known hmem

theorem count_fetchSet {slugs : List String} {entries : Table String (List Int)}
    (hentries : fetchSet store now account slugs first last granularity = some entries) :
    entries.count = (slugs.map lastSegment).dedup.length := by
  obtain ⟨hkeys, -, -⟩ := entries_of_foldlM hentries
  refine ((List.perm_ext_iff_of_nodup entries.nodup (List.nodup_dedup _)).mpr fun key => ?_).length_eq
  rw [hkeys, List.mem_dedup]
  exact or_iff_right List.not_mem_nil

theorem fetch_empty {first last : Aware} (hempty : last.instant < first.instant) (slug : String) :
    fetch store now account slug (some first) (some last) granularity = some [] := by
  unfold fetch getDateRange rangeKeys
  dsimp only [Option.bind_some]
  rw [rangeWalls_empty hempty]
  rfl

theorem exists_entries {first last : Aware} (hempty : last.instant < first.instant)
    (slugs : List String) (start : Table String (List Int)) :
    ∃ entries, slugs.foldlM (fun entries slug =>
      (fetch store now account slug (some first) (some last) granularity).map fun values =>
        entries.put (lastSegment slug) values) start = some entries := by
  induction slugs generalizing start with
  | nil => exact ⟨start, rfl⟩
  | cons slug rest ih =>
    obtain ⟨entries, hentries⟩ := ih (start.put (lastSegment slug) [])
    refine ⟨entries, ?_⟩
    rw [List.foldlM_cons, fetch_empty hempty, Option.map_some]
    exact hentries

theorem separateEntries_iff {slugs : List String} :
    SeparateEntries slugs ↔ (slugs.map lastSegment).Nodup := by
  constructor
  · intro hseparate
    let early : Aware := ⟨0, 0, by decide⟩
    let late : Aware := ⟨1, 0, by decide⟩
    obtain ⟨entries, hentries⟩ : ∃ entries, fetchSet (fun _ => none) early "global" slugs
        (some late) (some early) .hours = some entries :=
      exists_entries (by decide) slugs .empty
    have hcount := (hseparate _ _ _ _ _ _ entries hentries).1
    rw [count_fetchSet hentries, ← @List.length_map _ _ slugs lastSegment] at hcount
    rw [← (List.dedup_sublist _).eq_of_length hcount]
    exact List.nodup_dedup _
  · intro hnodup store now account first last granularity entries hentries
    refine ⟨?_, (entries_of_foldlM hentries).2.2 hnodup⟩
    rw [count_fetchSet hentries, hnodup.dedup, List.length_map]

end Sets

/-- A series is undisturbed by the calls for another one exactly where they are apart, and the slugs
of a set have entries of their own exactly where their last segments differ. -/
theorem interference (glob : Glob) :
    (∀ account slug other known : Name,
      Undisturbed glob account slug other known ↔ Apart glob account slug other known) ∧
    ∀ slugs, SeparateEntries slugs ↔ (slugs.map lastSegment).Nodup :=
  ⟨fun _ _ _ _ => undisturbed_iff, fun _ => separateEntries_iff⟩

/-! ### Series that interfere -/

/-- The patterns of Redis, as far as stars and question marks go. -/
def starMatch : List Char → List Char → Bool
  | [], key => key.isEmpty
  | '*' :: rest, key => key.tails.any fun tail => starMatch rest tail
  | '?' :: rest, key => !key.isEmpty && starMatch rest key.tail
  | char :: rest, key => key.head? = some char && starMatch rest key.tail

def starGlob : Glob := fun pattern key => starMatch pattern.toList key.toList

def globalAccount : Name := ⟨"global", by decide⟩

/-- A colon and a bar make one key; a deletion takes a longer slug with it; and two slugs with one
last segment share an entry. -/
theorem not_apart :
    ¬ Undisturbed starGlob globalAccount ⟨"a:b", by decide⟩ globalAccount ⟨"a|b", by decide⟩ ∧
      ¬ Undisturbed starGlob globalAccount ⟨"foo", by decide⟩ globalAccount ⟨"foobar", by decide⟩ ∧
      ¬ SeparateEntries ["logins:api", "errors:api"] := by
  refine ⟨fun hundisturbed => ?_, fun hundisturbed => ?_, fun hseparate => ?_⟩
  · exact hundisturbed.apart.named ⟨rfl, by decide⟩
  · have hcounter := hundisturbed.apart.counters .hours ⟨0, 0, by decide⟩
    exact absurd hcounter (by decide)
  · exact absurd (separateEntries_iff.mp hseparate) (by decide)

end DjangoMojo.Metrics
