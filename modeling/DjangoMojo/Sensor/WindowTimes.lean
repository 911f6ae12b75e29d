import Mathlib.Data.List.Induction
import DjangoMojo.Foundation.Timestamps
import DjangoMojo.Sensor.Conservation

/-! # The timestamps of a window

A window orders its timestamps as texts and the protocol orders them as instants.
The two orders agree unless the latest second holds both its whole second and a
fraction: then the window keeps the wrong observation, and where it also began with
the fraction, no event can be made of it.
-/

namespace DjangoMojo.Sensor

open Foundation

/-- An observation with a timestamp as `utc_now` and `normalize_timestamp` write it. -/
structure Sighting where
  observation : Observation
  stamp : Stamp
  observedAt_eq : observation.observedAt = stamp.text

/-- No timestamp of the sequence follows this one, as a text. -/
def Sighting.Last (sighting : Sighting) (seen : List Sighting) : Prop :=
  ∀ other ∈ seen, other.stamp.textRank ≤ sighting.stamp.textRank

/-- The window that repeated `merge` builds. -/
def mergeAll (seen : List Sighting) : Option Aggregate :=
  seen.foldl (fun window sighting => some (merge window sighting.observation)) none

/-- A row as `_aggregate_row` reads it. -/
def AggregateRow.window (row : AggregateRow) (fingerprint : String) : Aggregate :=
  { fingerprint := fingerprint
    observation := row.observation
    count := row.count
    firstSeen := row.firstSeen
    lastSeen := row.lastSeen
    flushAt := some row.flushAt }

/-- The rows that the store keeps for a sequence of observations, whenever each arrives. -/
inductive StoredAs (config : Config) (fingerprint : String) :
    List Sighting → Option AggregateRow → Prop where
  | nothing : StoredAs config fingerprint [] none
  | merged {seen : List Sighting} {row : Option AggregateRow} (sighting : Sighting) (now : Time)
      (hstored : StoredAs config fingerprint seen row) :
      StoredAs config fingerprint (seen ++ [sighting])
        (some (config.savedRow
          (merge (row.map (AggregateRow.window · fingerprint)) sighting.observation) now row))

variable (rules : Rules) (config : Config)

/-- What is claimed of the window of a sequence of observations. -/
structure AlwaysFlushes (seen : List Sighting) : Prop where
  ordered : ∀ window, mergeAll seen = some window →
    ∃ first last, rules.instant window.firstSeen = some first ∧
      rules.instant window.lastSeen = some last ∧ first ≤ last
  latest : ∀ window, mergeAll seen = some window →
    ∃ last, rules.instant window.observation.observedAt = some last ∧
      ∀ sighting ∈ seen, ∃ instant,
        rules.instant sighting.observation.observedAt = some instant ∧ instant ≤ last
  accepted : ∀ window, mergeAll seen = some window →
    (rules.makeEvent config.sensorId window.observation window.count window.firstSeen
      window.lastSeen).toOption.isSome = true
  flushes : ∀ fingerprint row, StoredAs config fingerprint seen (some row) → ∀ now store,
    (rules.flushAggregate config (row.window fingerprint) now store).isSome = true
  absorbs : ∀ earlier sighting, seen = earlier ++ [sighting] → ∀ row,
    StoredAs config sighting.observation.fingerprint earlier row → ∀ now (store : Store),
      store.aggregates.get sighting.observation.fingerprint = row →
        (rules.extendWindow config sighting.observation now store).isSome = true

/-- The latest second of the sequence holds its whole second and a fraction of it. -/
def MixesLatestSecond (seen : List Sighting) : Prop :=
  ∃ whole ∈ seen, ∃ part ∈ seen, whole.stamp.microsecond = 0 ∧ part.stamp.microsecond ≠ 0 ∧
    part.stamp.wholeSecond = whole.stamp.wholeSecond ∧
      ∀ other ∈ seen, other.stamp.wholeSecond ≤ whole.stamp.wholeSecond

/-! ### What a window keeps of its observations -/

/-- The window counts its observations, and has the timestamp of one of them as its first
and one that is last as its last. -/
structure Summarizes (window : Aggregate) (seen : List Sighting) : Prop where
  count : window.count = seen.length
  observation : ∃ latest ∈ seen, window.observation = latest.observation ∧ latest.Last seen
  firstSeen : ∃ first ∈ seen, window.firstSeen = first.stamp.text
  lastSeen : ∃ last ∈ seen, window.lastSeen = last.stamp.text ∧ last.Last seen

theorem Sighting.Last.concat {latest sighting : Sighting} {seen : List Sighting}
    (hlast : latest.Last seen) (hrank : sighting.stamp.textRank ≤ latest.stamp.textRank) :
    latest.Last (seen ++ [sighting]) := by
  intro other hother
  rcases List.mem_append.mp hother with hseen | hnew
  · exact hlast other hseen
  · rw [List.mem_singleton.mp hnew]
    exact hrank

theorem Sighting.Last.of_rank {latest sighting : Sighting} {seen : List Sighting}
    (hlast : latest.Last seen) (hrank : latest.stamp.textRank ≤ sighting.stamp.textRank) :
    sighting.Last (seen ++ [sighting]) := by
  intro other hother
  rcases List.mem_append.mp hother with hseen | hnew
  · exact (hlast other hseen).trans hrank
  · rw [List.mem_singleton.mp hnew]

theorem summarizes_merge_none (sighting : Sighting) :
    Summarizes (merge none sighting.observation) [sighting] where
  count := rfl
  observation := ⟨sighting, List.mem_singleton_self _, rfl, by simp [Sighting.Last]⟩
  firstSeen := ⟨sighting, List.mem_singleton_self _, sighting.observedAt_eq⟩
  lastSeen := ⟨sighting, List.mem_singleton_self _, sighting.observedAt_eq, by simp [Sighting.Last]⟩

theorem Summarizes.merge {window : Aggregate} {seen : List Sighting}
    (hwindow : Summarizes window seen) (sighting : Sighting) :
    Summarizes (merge (some window) sighting.observation) (seen ++ [sighting]) := by
  have hnew : sighting ∈ seen ++ [sighting] := by simp
  have hold {other : Sighting} (hother : other ∈ seen) : other ∈ seen ++ [sighting] :=
    List.mem_append_left _ hother
  obtain ⟨latest, hlatest, hobservation, hlatestLast⟩ := hwindow.observation
  obtain ⟨last, hlast, hlastSeen, hlastLast⟩ := hwindow.lastSeen
  refine ⟨?_, ?_, ?_, ?_⟩
  · rw [List.length_append]
    change window.count + 1 = _
    rw [hwindow.count]
    rfl
  · simp only [Sensor.merge, sighting.observedAt_eq, hlastSeen, Stamp.text_lt_iff_textRank]
    split
    next hrank =>
      have hlatestRank := hlatestLast last hlast
      exact ⟨latest, hold hlatest, hobservation, hlatestLast.concat (by omega)⟩
    next hrank => exact ⟨sighting, hnew, rfl, hlastLast.of_rank (by omega)⟩
  · obtain ⟨first, hfirst, hfirstSeen⟩ := hwindow.firstSeen
    simp only [Sensor.merge, earlierText, sighting.observedAt_eq, hfirstSeen]
    split
    · exact ⟨sighting, hnew, rfl⟩
    · exact ⟨first, hold hfirst, rfl⟩
  · simp only [Sensor.merge, laterText, sighting.observedAt_eq, hlastSeen,
      Stamp.text_lt_iff_textRank]
    split
    next hrank => exact ⟨sighting, hnew, rfl, hlastLast.of_rank (by omega)⟩
    next hrank => exact ⟨last, hold hlast, rfl, hlastLast.concat (by omega)⟩

theorem summarizes_mergeAll (seen : List Sighting) :
    (mergeAll seen = none ∧ seen = []) ∨
      ∃ window, mergeAll seen = some window ∧ Summarizes window seen := by
  induction seen using List.reverseRecOn with
  | nil => exact .inl ⟨rfl, rfl⟩
  | append_singleton seen sighting ih =>
    right
    have hfold : mergeAll (seen ++ [sighting]) =
        some (Sensor.merge (mergeAll seen) sighting.observation) := by
      rw [mergeAll, List.foldl_concat]
      rfl
    rcases ih with ⟨hnone, rfl⟩ | ⟨window, hsome, hwindow⟩
    · rw [hfold, hnone]
      exact ⟨_, rfl, summarizes_merge_none sighting⟩
    · rw [hfold, hsome]
      exact ⟨_, rfl, hwindow.merge sighting⟩

variable {rules config}

theorem StoredAs.summarizes_merge {fingerprint : String} {seen : List Sighting}
    {row : Option AggregateRow} (hstored : StoredAs config fingerprint seen row)
    (hrow : ∀ kept, row = some kept → Summarizes (kept.window fingerprint) seen)
    (sighting : Sighting) :
    Summarizes (merge (row.map (AggregateRow.window · fingerprint)) sighting.observation)
      (seen ++ [sighting]) := by
  cases hstored with
  | nothing => exact summarizes_merge_none sighting
  | merged earlier now hearlier => exact (hrow _ rfl).merge sighting

theorem StoredAs.summarizes {fingerprint : String} {seen : List Sighting}
    {row : Option AggregateRow} (hstored : StoredAs config fingerprint seen row) :
    ∀ kept, row = some kept → Summarizes (kept.window fingerprint) seen := by
  induction hstored with
  | nothing => exact nofun
  | @merged seen row sighting now hseen ih =>
    intro kept hkept
    cases hkept
    have hmerged := hseen.summarizes_merge ih sighting
    refine ⟨hmerged.count, hmerged.observation, ?_, hmerged.lastSeen⟩
    cases hrow : row with
    | none =>
      rw [hrow] at hmerged
      exact hmerged.firstSeen
    | some old =>
      obtain ⟨first, hfirst, hfirstSeen⟩ := (ih old hrow).firstSeen
      exact ⟨first, List.mem_append_left _ hfirst, hfirstSeen⟩

/-! ### When an event can be made of a window -/

/-- The instants of the timestamps are ordered as their fields are. -/
def OrdersInstants (library : Library) (seen : List Sighting) : Prop :=
  ∀ first ∈ seen, ∀ second ∈ seen, ∀ firstInstant secondInstant,
    library.instant first.stamp.text = some firstInstant →
    library.instant second.stamp.text = some secondInstant →
      (firstInstant ≤ secondInstant ↔ first.stamp.instant ≤ second.stamp.instant)

def AcceptedAlone (library : Library) (config : Config) (seen : List Sighting) : Prop :=
  ∀ sighting ∈ seen,
    (library.makeSingleEvent config.sensorId sighting.observation).toOption.isSome = true

section

variable {library : Library} {seen : List Sighting}

theorem AcceptedAlone.dated (halone : AcceptedAlone library config seen) {sighting : Sighting}
    (hsighting : sighting ∈ seen) :
    ∃ instant, library.Dated sighting.stamp.text instant := by
  obtain ⟨_, ⟨first, last, _, _, hobserved, _⟩, _⟩ :=
    Library.validateEvent_ok.mp (Library.makeEvent_isSome.mp (halone sighting hsighting))
  have hdated : library.Dated sighting.observation.observedAt last := by
    simpa only [Library.assembleEvent, if_true] using hobserved
  rw [sighting.observedAt_eq] at hdated
  exact ⟨last, hdated⟩

theorem AcceptedAlone.content (halone : AcceptedAlone library config seen) {sighting : Sighting}
    (hsighting : sighting ∈ seen) :
    library.ContentAccepted
      (library.assembleEvent config.sensorId sighting.observation 1 "" "") :=
  (Library.validateEvent_ok.mp (Library.makeEvent_isSome.mp (halone sighting hsighting))).2.2.2

/-- Unless the latest second is mixed, a timestamp that is last as a text is last as an
instant. -/
theorem Sighting.Last.instant_le (hpure : ¬ MixesLatestSecond seen) {last other : Sighting}
    (hlast : last.Last seen) (hmem : last ∈ seen) (hother : other ∈ seen) :
    other.stamp.instant ≤ last.stamp.instant := by
  apply Stamp.instant_le_of_textRank_le (hlast other hother)
  intro hsecond hwhole
  by_contra hpart
  refine hpure ⟨last, hmem, other, hother, hwhole, hpart, hsecond, ?_⟩
  intro third hthird
  have hrank := hlast third hthird
  have hthirdRank := third.stamp.fractionRank_le
  have hlastRank := last.stamp.fractionRank_le
  simp only [Stamp.textRank] at hrank
  omega

theorem Summarizes.ordered {window : Aggregate} (hwindow : Summarizes window seen)
    (horder : OrdersInstants library seen) (halone : AcceptedAlone library config seen)
    (hpure : ¬ MixesLatestSecond seen) :
    ∃ first last, library.Dated window.firstSeen first ∧ library.Dated window.lastSeen last ∧
      first ≤ last := by
  obtain ⟨first, hfirst, hfirstSeen⟩ := hwindow.firstSeen
  obtain ⟨last, hlast, hlastSeen, hmaximal⟩ := hwindow.lastSeen
  obtain ⟨firstInstant, hfirstDated⟩ := halone.dated hfirst
  obtain ⟨lastInstant, hlastDated⟩ := halone.dated hlast
  rw [hfirstSeen, hlastSeen]
  refine ⟨firstInstant, lastInstant, hfirstDated, hlastDated, ?_⟩
  rw [horder first hfirst last hlast _ _ hfirstDated.2 hlastDated.2]
  exact hmaximal.instant_le hpure hlast hfirst

theorem Summarizes.accepted {window : Aggregate} (hwindow : Summarizes window seen)
    (hdigest : ∀ text, isDigest (library.digest text) = true)
    (horder : OrdersInstants library seen) (halone : AcceptedAlone library config seen)
    (hpure : ¬ MixesLatestSecond seen) (hlength : seen.length ≤ 1000000000) :
    (library.makeEvent config.sensorId window.observation window.count window.firstSeen
      window.lastSeen).toOption.isSome = true := by
  obtain ⟨first, last, hfirst, hlast, hle⟩ := hwindow.ordered horder halone hpure
  obtain ⟨latest, hlatest, hobservation, _⟩ := hwindow.observation
  obtain ⟨opening, hopening, hfirstSeen⟩ := hwindow.firstSeen
  obtain ⟨closing, hclosing, hlastSeen, _⟩ := hwindow.lastSeen
  have hcount := hwindow.count
  have hpositive := List.length_pos_of_mem hlatest
  have hfirstText : window.firstSeen ≠ "" := by
    rw [hfirstSeen]
    exact opening.stamp.text_ne_empty
  have hlastText : window.lastSeen ≠ "" := by
    rw [hlastSeen]
    exact closing.stamp.text_ne_empty
  rw [Library.makeEvent_isSome, Library.validateEvent_ok]
  refine ⟨hdigest _, ⟨first, last, ?_, ?_, ?_, hle⟩, ⟨?_, ?_⟩, ?_⟩
  · simpa only [Library.assembleEvent, if_neg hfirstText] using hfirst
  · simpa only [Library.assembleEvent, if_neg hlastText] using hlast
  · simpa only [Library.assembleEvent, if_neg hlastText] using hlast
  · change 1 ≤ window.count
    omega
  · change window.count ≤ 1000000000
    omega
  · rw [hobservation]
    exact Library.contentAccepted_assembleEvent (halone.content hlatest)

end

theorem flushAggregate_isSome {window : Aggregate} {now : Time} {store : Store}
    (hevent : (rules.makeEvent config.sensorId window.observation window.count window.firstSeen
      window.lastSeen).toOption.isSome = true) :
    (rules.flushAggregate config window now store).isSome = true := by
  obtain ⟨event, hevent⟩ := Option.isSome_iff_exists.mp hevent
  simp [Rules.flushAggregate, hevent]

/-- The window of a sequence of observations, each of which makes an event on its own, is
as claimed exactly when its latest second is not mixed and its count is within bounds. -/
theorem alwaysFlushes_iff_not_mixesLatestSecond {seen : List Sighting}
    (hdigest : ∀ text, isDigest (rules.digest text) = true)
    (horder : OrdersInstants rules.toLibrary seen)
    (halone : AcceptedAlone rules.toLibrary config seen) :
    AlwaysFlushes rules config seen ↔
      ¬ MixesLatestSecond seen ∧ seen.length ≤ 1000000000 := by
  constructor
  · intro hflushes
    constructor
    · -- The window keeps the whole second, though the fraction is later.
      rintro ⟨whole, hwhole, part, hpart, hzero, hfraction, hsecond, hlatest⟩
      rcases summarizes_mergeAll seen with ⟨_, rfl⟩ | ⟨window, hwindow, hsummary⟩
      · cases hwhole
      obtain ⟨last, hlast, hobservation, hmaximal⟩ := hsummary.observation
      obtain ⟨lastInstant, hlastInstant, hall⟩ := hflushes.latest window hwindow
      obtain ⟨partInstant, hpartInstant, hle⟩ := hall part hpart
      rw [hobservation, last.observedAt_eq] at hlastInstant
      rw [part.observedAt_eq] at hpartInstant
      have hstamps := (horder part hpart last hlast _ _ hpartInstant hlastInstant).mp hle
      have hkept := Stamp.microsecond_eq_zero_of_textRank_le hzero (hmaximal whole hwhole)
        (hlatest last hlast)
      simp only [Stamp.instant] at hstamps
      omega
    · rcases summarizes_mergeAll seen with ⟨_, rfl⟩ | ⟨window, hwindow, hsummary⟩
      · exact Nat.zero_le _
      have hvalid := Library.validateEvent_ok.mp
        (Library.makeEvent_isSome.mp (hflushes.accepted window hwindow))
      rw [← hsummary.count]
      exact hvalid.2.2.1.2
  · rintro ⟨hpure, hlength⟩
    have haccepted {window : Aggregate} (hwindow : Summarizes window seen) :=
      hwindow.accepted hdigest horder halone hpure hlength
    have hmerged {window : Aggregate} (hwindow : mergeAll seen = some window) :
        Summarizes window seen := by
      rcases summarizes_mergeAll seen with ⟨hnone, _⟩ | ⟨found, hfound, hsummary⟩
      · cases hnone.symm.trans hwindow
      · cases hfound.symm.trans hwindow
        exact hsummary
    refine ⟨?_, ?_, fun window hwindow => haccepted (hmerged hwindow), ?_, ?_⟩
    · intro window hwindow
      obtain ⟨first, last, hfirst, hlast, hle⟩ :=
        (hmerged hwindow).ordered horder halone hpure
      exact ⟨first, last, hfirst.2, hlast.2, hle⟩
    · intro window hwindow
      obtain ⟨last, hlast, hobservation, hmaximal⟩ := (hmerged hwindow).observation
      obtain ⟨lastInstant, hdated⟩ := halone.dated hlast
      rw [hobservation, last.observedAt_eq]
      refine ⟨lastInstant, hdated.2, ?_⟩
      intro sighting hsighting
      obtain ⟨instant, hinstant⟩ := halone.dated hsighting
      rw [sighting.observedAt_eq]
      refine ⟨instant, hinstant.2, ?_⟩
      rw [horder sighting hsighting last hlast _ _ hinstant.2 hdated.2]
      exact hmaximal.instant_le hpure hlast hsighting
    · intro fingerprint row hstored now store
      exact flushAggregate_isSome (haccepted (hstored.summarizes row rfl))
    · rintro earlier sighting rfl row hstored now store hrow
      have hread : store.aggregateRow sighting.observation.fingerprint =
          row.map (AggregateRow.window · sighting.observation.fingerprint) := by
        rw [← hrow]
        rfl
      unfold Rules.extendWindow
      rw [hread]
      simp only
      split
      · exact flushAggregate_isSome
          (haccepted (hstored.summarizes_merge hstored.summarizes sighting))
      · rfl

/-! ### A second and its half -/

/-- The instants of three timestamps, from the whole second on. -/
def halfSecondRules : Rules :=
  { sampleRules with
    instant := fun text =>
      if text = "2026-08-11T02:44:00Z" then some 0
      else if text = "2026-08-11T02:44:00.500000Z" then some 500000
      else if text = "2026-08-11T02:44:01Z" then some 1000000
      else none }

def wholeSecondError : Sighting where
  observation := serverError
  stamp := { year := 2026, month := 8, day := 11, hour := 2, minute := 44, second := 0,
             microsecond := 0 }
  observedAt_eq := by decide

def halfSecondError : Sighting where
  observation := { serverError with observedAt := "2026-08-11T02:44:00.500000Z" }
  stamp := { year := 2026, month := 8, day := 11, hour := 2, minute := 44, second := 0,
             microsecond := 500000 }
  observedAt_eq := by decide

def nextSecondError : Sighting where
  observation := { serverError with observedAt := "2026-08-11T02:44:01Z" }
  stamp := { year := 2026, month := 8, day := 11, hour := 2, minute := 44, second := 1,
             microsecond := 0 }
  observedAt_eq := by decide

/-- The window of a half second and the whole one before it begins after it ends: no event
can be made of the row. -/
theorem not_alwaysFlushes_halfSecond :
    ¬ AlwaysFlushes halfSecondRules { sensorId := "web1" }
      [halfSecondError, wholeSecondError] := by
  intro hflushes
  have hstored : StoredAs { sensorId := "web1" } serverError.fingerprint
      [halfSecondError, wholeSecondError] _ :=
    .merged wholeSecondError 0 (.merged halfSecondError 0 .nothing)
  exact absurd (hflushes.flushes _ _ hstored 0 {}) (by decide)

def halfSecondCall : IngestCall where
  now := 0
  observations := [halfSecondError.observation, wholeSecondError.observation]

/-- The ingestion commits the row, and the flush of it rolls back. -/
example :
    let ingested := halfSecondRules.ingest { sensorId := "web1" } halfSecondCall {}
    ingested.isSome = true ∧
      (ingested.bind (halfSecondRules.flushDueRows { sensorId := "web1" } (seconds 60))).isNone =
        true := by
  decide +kernel

theorem alwaysFlushes_nextSecond :
    AlwaysFlushes halfSecondRules { sensorId := "web1" } [halfSecondError, nextSecondError] := by
  have hhalf : halfSecondRules.instant halfSecondError.stamp.text = some 500000 := by
    decide
  have hnext : halfSecondRules.instant nextSecondError.stamp.text = some 1000000 := by
    decide
  refine (alwaysFlushes_iff_not_mixesLatestSecond ?_ ?_ ?_).mpr ⟨?_, by decide⟩
  · intro text
    change isDigest "13bd2c4d519037ab8d12560a1252f4215f5bce98de7c16910e370271f011fe04" = true
    decide
  · intro first hfirst second hsecond firstInstant secondInstant hfirstInstant hsecondInstant
    simp only [List.mem_cons, List.not_mem_nil, or_false] at hfirst hsecond
    rcases hfirst with rfl | rfl <;> rcases hsecond with rfl | rfl <;>
      simp only [hhalf, hnext, Option.some.injEq] at hfirstInstant hsecondInstant <;>
      subst hfirstInstant <;> subst hsecondInstant <;> decide
  · intro sighting hsighting
    simp only [List.mem_cons, List.not_mem_nil, or_false] at hsighting
    rcases hsighting with rfl | rfl <;> decide
  · rintro ⟨whole, hwhole, part, hpart, hzero, hfraction, hsecond, _⟩
    simp only [List.mem_cons, List.not_mem_nil, or_false] at hwhole hpart
    rcases hwhole with rfl | rfl <;> rcases hpart with rfl | rfl
    · exact hfraction hzero
    · exact absurd hzero (by decide)
    · exact absurd hsecond (by decide)
    · exact hfraction hzero

end DjangoMojo.Sensor
