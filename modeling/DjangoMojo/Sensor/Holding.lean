import DjangoMojo.Sensor.Intake

/-! # The effect of the calls

Holding an observation, letting it go, and the calls that are made of these: none
of them touches an ordinary row of the spool, and none changes the surplus.
-/

namespace DjangoMojo.Sensor

open Foundation

variable {rules : Rules} {config : Config}

theorem Effect.cast {delta other : Int} {before after : Store}
    (heffect : Effect config delta before after) (heq : delta = other) :
    Effect config other before after :=
  heq ▸ heffect

/-- The entries that neither the account nor the capacity looks at. -/
def Entry.isSilent : Entry → Bool
  | .received _ | .held _ _ _ | .handed _ _ | .recorded _ _ => true
  | .offered _ _ _ _ | .refused _ _ _ => false

theorem tally_silent {entry : Entry} (hsilent : entry.isSilent = true) {counter : Counter}
    {counted : Entry → Bool} (htally : counter.tally = some counted) : counted entry = false := by
  cases entry with
  | offered => cases hsilent
  | refused => cases hsilent
  | _ => cases counter <;> cases htally <;> rfl

theorem note_effect (entry : Entry) (hsilent : entry.isSilent = true) (store : Store) :
    Effect config entry.weight store (store.note entry) := by
  refine ⟨HasOrdinary.congr rfl, surplus_note store entry, fun haccounted => ?_,
    fun _ hcapacity => ?_⟩
  · refine haccounted.noted rfl (fun id row hrow => .inr ⟨row, hrow⟩) ?_ ?_
    · intro id hid
      cases entry with
      | offered => cases hsilent
      | _ => cases hid
    · intro counter counted htally
      rw [tally_silent hsilent htally]
      rfl
  · refine ⟨hcapacity.events, hcapacity.aggregates, fun other hother => ?_⟩
    cases hother with
    | head =>
      cases entry with
      | offered => cases hsilent
      | refused => cases hsilent
      | _ => trivial
    | tail _ hother => exact hcapacity.entries other hother

/-- The held observations of a store replaced. -/
theorem pending_effect (delta : Int) (store : Store) (held : Table String PendingRow)
    (htotal : (held.total fun row => row.payload.occurrences : Int) =
      store.heldOccurrences + delta) :
    Effect config delta store { store with pendingFirewall := held } where
  ordinary := HasOrdinary.congr rfl
  surplus := by
    change (store.openOccurrences : Int) + held.total _ + (store.ledger.map Entry.weight).sum =
      store.surplus + delta
    simp only [Store.surplus]
    omega
  accounted haccounted := ⟨haccounted.spooled, haccounted.justified, haccounted.tallied⟩
  capacity _ hwithin := ⟨hwithin.events, hwithin.aggregates, hwithin.entries⟩

theorem deletePending_effect {store : Store} {id : String} {row : PendingRow}
    (hrow : store.pendingFirewall.get id = some row) :
    Effect config (-row.payload.occurrences) store (store.deletePending id) := by
  refine pending_effect _ store _ ?_
  have htotal := store.pendingFirewall.total_delete
    (fun row => row.payload.occurrences) id
  rw [hrow] at htotal
  change _ + row.payload.occurrences = store.heldOccurrences at htotal
  omega

/-- A loop whose turns change no surplus changes none. -/
theorem run_effect {Item : Type} {body : Store → Item → Option Store}
    (hbody : ∀ store item next, body store item = some next → Effect config 0 store next)
    {items : List Item} {store last : Store} (hrun : run body store items = some last) :
    Effect config 0 store last :=
  run_relates (fun store => .refl store) (fun hfirst hsecond => hfirst.trans hsecond) hbody hrun

/-! ### Letting go -/

theorem handOver_effect {observation : Observation} {counter : Option Counter} {now : Time}
    {id : String} {row : PendingRow} {store next : Store}
    (hcounter : counter.bind Counter.tally = none)
    (hrow : store.pendingFirewall.get id = some row)
    (hflag : observation.aggregate = row.payload.aggregate)
    (hnext : rules.handOver config observation counter now id row.number store = some next) :
    Effect config 0 store next := by
  simp only [Rules.handOver, Option.bind_eq_bind, Option.bind_eq_some_iff] at hnext
  obtain ⟨ingested, hingested, hnext⟩ := hnext
  have hintake := ingestOne_intake hingested
  have hcounted : ∃ counted, Intake config observation.occurrences store counted ∧
      next = (counted.note (.handed row.number observation)).deletePending id := by
    cases counter with
    | none =>
      cases hnext
      exact ⟨ingested, hintake, rfl⟩
    | some found =>
      cases hnext
      exact ⟨_, hintake.trans (incrementSaturating_intake hcounter ingested 1), rfl⟩
  obtain ⟨counted, hcountedIntake, rfl⟩ := hcounted
  have hnoted := hcountedIntake.toEffect.trans
    (note_effect (.handed row.number observation) rfl counted)
  have hheld : (counted.note (.handed row.number observation)).pendingFirewall.get id =
      some row := by
    rw [← hrow, ← hcountedIntake.pending]
    rfl
  refine (hnoted.trans (deletePending_effect hheld)).cast ?_
  have hweight : (Entry.handed row.number observation).weight = 0 := rfl
  rw [occurrences_eq hflag, hweight]
  omega

theorem release_effect {counter : Option Counter} {now : Time} {store next : Store} {id : String}
    (hcounter : counter.bind Counter.tally = none)
    (hnext : rules.release config counter now store id = some next) :
    Effect config 0 store next := by
  unfold Rules.release at hnext
  split at hnext
  next =>
    cases hnext
    exact .refl store
  next row hrow => exact handOver_effect hcounter hrow rfl hnext

theorem capFlush_effect {now : Time} {store last : Store} {ids : List String}
    (hrun : run (rules.release config (some .provenancePendingCapFlush) now) store ids =
      some last) : Effect config 0 store last :=
  run_effect (fun _ _ _ hstep => release_effect rfl hstep) hrun

theorem shrinkHeld_effect {now : Time} {turns : Nat} {store next : Store}
    (hnext : rules.shrinkHeld config now turns store = some next) :
    Effect config 0 store next := by
  induction turns generalizing store with
  | zero =>
    cases hnext
    exact .refl _
  | succ turns ih =>
    unfold Rules.shrinkHeld at hnext
    split at hnext
    · cases hnext
      exact .refl _
    · obtain ⟨middle, hmiddle, hnext⟩ := Option.bind_eq_some_iff.mp hnext
      exact (capFlush_effect hmiddle).trans (ih hnext)

theorem flushExpiredFirewall_effect {now : Time} {store next : Store}
    (hnext : rules.flushExpiredFirewall config now store = some next) :
    Effect config 0 store next :=
  run_effect (fun _ _ _ hstep => release_effect rfl hstep) hnext

/-! ### Holding -/

theorem insertHeld_effect (observation : Observation) (now : Time) (store : Store) :
    Effect config observation.occurrences store (insertHeld observation now store) := by
  cases hget : store.pendingFirewall.get observation.fingerprint with
  | none =>
    simp only [insertHeld, hget, Option.isNone_none]
    refine ((pending_effect observation.occurrences store _ ?_).trans
      (note_effect _ rfl _)).cast ?_
    · rw [Table.total_insert _ hget]
      push_cast
      rfl
    · exact add_zero _
  | some row =>
    have hkeys : observation.fingerprint ∈ store.pendingFirewall.keys := by
      rw [Table.mem_keys, hget]
      rfl
    simp only [insertHeld, hget, Option.isNone_some]
    refine ((pending_effect 0 store _ ?_).trans (note_effect _ rfl _)).cast ?_
    · rw [Table.insert, dif_pos hkeys, add_zero]
      rfl
    · exact zero_add _

theorem holdFirewallObservation_effect {observation : Observation} {now : Time}
    {store next : Store}
    (hnext : rules.holdFirewallObservation config observation now store = some next) :
    Effect config observation.occurrences store next := by
  unfold Rules.holdFirewallObservation at hnext
  split at hnext
  · cases hnext
  · obtain ⟨capped, hcapped, hnext⟩ := Option.bind_eq_some_iff.mp hnext
    exact (((insertHeld_effect observation now store).trans (capFlush_effect hcapped)).trans
      (shrinkHeld_effect hnext)).cast (by omega)

/-! ### Resolution -/

theorem resolveOne_effect {currentHealth : Option Bool} {verdict : Observation → Verdict}
    {now : Time} {store next : Store} {id : String}
    (hnext : rules.resolveOne config currentHealth verdict now store id = some next) :
    Effect config 0 store next := by
  have hfailOpen : ∀ {next}, rules.release config (some .provenanceHealthFailOpen) now store id =
      some next → Effect config 0 store next :=
    fun hstep => release_effect rfl hstep
  unfold Rules.resolveOne at hnext
  split at hnext
  next =>
    cases hnext
    exact .refl store
  next row hrow =>
    split at hnext
    next =>
      cases hnext
      exact .refl store
    next => exact hfailOpen hnext
    next =>
      split at hnext
      next =>
        cases hnext
        exact .refl store
      next => exact hfailOpen hnext
      next => exact release_effect rfl hnext
      next => exact handOver_effect rfl hrow (by rfl) hnext
      next proof =>
        simp only [Option.bind_eq_bind, Option.bind_eq_some_iff] at hnext
        obtain ⟨attributes, _, recorded, hrecorded, hnext⟩ := hnext
        cases hnext
        have hintake := recordLocalOnly_intake hrecorded
        have hlocal : row.payload.occurrences = 0 := by
          simp only [Rules.recordLocalOnly, Option.bind_eq_bind, Option.bind_eq_some_iff]
            at hrecorded
          obtain ⟨classifier, hclassifier, _⟩ := hrecorded
          have hflag := classifier_aggregate
            (Option.isSome_iff_exists.mpr ⟨classifier, hclassifier⟩)
          rw [Observation.occurrences, show row.payload.aggregate = false from hflag]
          rfl
        have hnoted := hintake.toEffect.trans (note_effect
          (.recorded row.number { row.payload with attributes := attributes }) rfl recorded)
        have hheld : (recorded.note (.recorded row.number
            { row.payload with attributes := attributes })).pendingFirewall.get id = some row := by
          rw [← hrow, ← hintake.pending]
          rfl
        refine (hnoted.trans (deletePending_effect hheld)).cast ?_
        rw [hlocal]
        rfl

theorem resolvePendingFirewall_effect {currentHealth : Option Bool}
    {verdict : Observation → Verdict} {now : Time} {store next : Store}
    (hnext : rules.resolvePendingFirewall config currentHealth verdict now store = some next) :
    Effect config 0 store next :=
  run_effect (fun _ _ _ hstep => resolveOne_effect hstep) hnext

/-! ### Calls -/

/-- An observation counts as received before it is placed. -/
theorem received_effect {found : Observation} {store next : Store}
    (hplaced : Effect config found.occurrences (store.note (.received found)) next) :
    Effect config 0 store next :=
  ((note_effect (.received found) rfl store).trans hplaced).cast (neg_add_cancel _)

theorem ingestFound_effect {call : IngestCall} {store next : Store} {observation : Observation}
    (hnext : rules.ingestFound config call store observation = some next) :
    Effect config 0 store next := by
  obtain ⟨found, _, hnext⟩ := Option.bind_eq_some_iff.mp hnext
  have hplaced : Effect config found.occurrences (store.note (.received found)) next := by
    simp only at hnext
    split at hnext
    · exact holdFirewallObservation_effect hnext
    · exact (ingestOne_intake hnext).toEffect
  exact received_effect hplaced

/-- What neither the account nor the surplus reads. -/
theorem Effect.of_rest {before after : Store} (hevents : after.events = before.events)
    (haggregates : after.aggregates = before.aggregates)
    (hpending : after.pendingFirewall = before.pendingFirewall)
    (hledger : after.ledger = before.ledger) (hcounters : after.counters = before.counters) :
    Effect config 0 before after :=
  (Intake.of_same hevents haggregates hpending hledger
    fun _ _ _ => by rw [hcounters]).toEffect

theorem ingest_effect {call : IngestCall} {store next : Store}
    (hnext : rules.ingest config call store = some next) : Effect config 0 store next := by
  simp only [Rules.ingest, Option.bind_eq_bind, Option.bind_eq_some_iff] at hnext
  obtain ⟨ingested, hingested, resolved, hresolved, expired, hexpired, flushed, hflushed,
    hnext⟩ := hnext
  have hbody : Effect config 0 store flushed :=
    (((run_effect (fun _ _ _ hstep => ingestFound_effect hstep) hingested).trans
      (resolvePendingFirewall_effect hresolved)).trans
        (flushExpiredFirewall_effect hexpired)).trans (flushDueRows_intake hflushed).toEffect
  split at hnext
  · cases hnext
    refine (hbody.trans ?_).cast (add_zero 0)
    exact .of_rest rfl rfl rfl rfl rfl
  · cases hnext
    exact hbody

theorem recordBaseline_effect {call : FimScanCall} {store next : Store}
    (hnext : recordBaseline call store = some next) : Effect config 0 store next := by
  unfold recordBaseline at hnext
  split at hnext
  · obtain ⟨rows, _, rfl⟩ := Option.map_eq_some_iff.mp hnext
    exact .of_rest rfl rfl rfl rfl rfl
  · cases hnext
    exact .refl store

theorem recordFimScan_effect {call : FimScanCall} {store next : Store}
    (hnext : rules.recordFimScan config call store = some next) : Effect config 0 store next := by
  simp only [Rules.recordFimScan, Option.bind_eq_bind, Option.bind_eq_some_iff] at hnext
  obtain ⟨ingested, hingested, recorded, hrecorded, hnext⟩ := hnext
  exact ((run_effect (fun _ _ _ hstep => received_effect (ingestOne_intake hstep).toEffect)
    hingested).trans (recordBaseline_effect hrecorded)).trans (flushDueRows_intake hnext).toEffect

end DjangoMojo.Sensor
