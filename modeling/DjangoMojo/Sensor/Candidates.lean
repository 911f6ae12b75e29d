import DjangoMojo.Sensor.Conservation

/-! # Held firewall candidates

Every holding has a number. A holding for which a row was inserted is pending,
handed over or recorded, exactly one of the three and exactly once.
-/

namespace DjangoMojo.Sensor

open Foundation

variable {rules : Rules} {config : Config}

namespace Entry

def isHeldAs (number : Nat) : Entry → Bool
  | .held other _ _ => other = number
  | _ => false

def isInsertedAs (number : Nat) : Entry → Bool
  | .held other _ inserted => other = number && inserted
  | _ => false

def isHandedAs (number : Nat) : Entry → Bool
  | .handed other _ => other = number
  | _ => false

def isRecordedAs (number : Nat) : Entry → Bool
  | .recorded other _ => other = number
  | _ => false

def isHeld : Entry → Bool
  | .held _ _ _ => true
  | _ => false

end Entry

def SameIdentity (first second : Observation) : Prop :=
  second.kind = first.kind ∧ second.fingerprint = first.fingerprint ∧
    second.observedAt = first.observedAt

def pendingAs (pending : Table String PendingRow) (number : Nat) : Nat :=
  pending.total fun row => if row.number = number then 1 else 0

structure HoldingsSound (rules : Rules) (pending : Table String PendingRow)
    (entries : List Entry) : Prop where
  placed : ∀ number, pendingAs pending number + entries.countP (Entry.isHandedAs number) +
    entries.countP (Entry.isRecordedAs number) = entries.countP (Entry.isInsertedAs number)
  once : ∀ number, entries.countP (Entry.isHeldAs number) ≤ 1
  fresh : ∀ number, entries.countP Entry.isHeld ≤ number →
    entries.countP (Entry.isHeldAs number) = 0
  rows : ∀ id row, pending.get id = some row →
    .held row.number row.payload true ∈ entries
  handed : ∀ number observation, .handed number observation ∈ entries →
    ∃ held, .held number held true ∈ entries ∧ SameIdentity held observation
  recorded : ∀ number observation, .recorded number observation ∈ entries →
    (rules.classifier observation).isSome = true ∧
      ∃ held, .held number held true ∈ entries ∧ SameIdentity held observation

def Store.holdingEntries (store : Store) : List Entry := store.ledger.filter Entry.isHolding

def Store.HoldingsSound (rules : Rules) (store : Store) : Prop :=
  Sensor.HoldingsSound rules store.pendingFirewall store.holdingEntries

theorem holdings_eq (store : Store) :
    store.holdings = store.holdingEntries.countP Entry.isHeld := by
  rw [Store.holdingEntries, List.countP_filter]
  apply List.countP_congr
  intro entry _
  cases entry <;> simp [Entry.isHeld, Entry.isHolding]

/-- A step that holds nothing: whatever was held stays placed, and no fingerprint is
pending that was not. -/
structure Settles (rules : Rules) (before after : Store) : Prop where
  sound : before.HoldingsSound rules → after.HoldingsSound rules
  held : after.holdingEntries.filter Entry.isHeld = before.holdingEntries.filter Entry.isHeld
  pending : ∀ id, before.pendingFirewall.get id = none → after.pendingFirewall.get id = none

theorem Settles.refl (store : Store) : Settles rules store store :=
  ⟨id, rfl, fun _ hnone => hnone⟩

theorem Settles.trans {before middle after : Store} (hfirst : Settles rules before middle)
    (hsecond : Settles rules middle after) : Settles rules before after :=
  ⟨fun hsound => hsecond.sound (hfirst.sound hsound), hsecond.held.trans hfirst.held,
    fun id hnone => hsecond.pending id (hfirst.pending id hnone)⟩

theorem Settles.of_same {before after : Store}
    (hpending : after.pendingFirewall = before.pendingFirewall)
    (hentries : after.holdingEntries = before.holdingEntries) : Settles rules before after := by
  refine ⟨fun hsound => ?_, by rw [hentries], fun id hnone => by rw [hpending]; exact hnone⟩
  rw [Store.HoldingsSound, hpending, hentries]
  exact hsound

theorem Intake.settles {delta : Int} {before after : Store}
    (hintake : Intake config delta before after) : Settles rules before after :=
  .of_same hintake.pending hintake.holdings

theorem run_settles {Item : Type} {body : Store → Item → Option Store}
    (hbody : ∀ store item next, body store item = some next → Settles rules store next)
    {items : List Item} {store last : Store} (hrun : run body store items = some last) :
    Settles rules store last :=
  run_relates (fun store => .refl store) (fun hfirst hsecond => hfirst.trans hsecond) hbody hrun

/-! ### Letting go -/

theorem pendingAs_delete {pending : Table String PendingRow} {id : String} {row : PendingRow}
    (hrow : pending.get id = some row) (number : Nat) :
    pendingAs (pending.delete id) number + (if row.number = number then 1 else 0) =
      pendingAs pending number := by
  have htotal := pending.total_delete (fun row => if row.number = number then 1 else 0) id
  rw [hrow] at htotal
  exact htotal

theorem settle_sound {pending : Table String PendingRow} {entries : List Entry} {id : String}
    {row : PendingRow} {observation : Observation} {entry : Entry}
    (hrow : pending.get id = some row)
    (hentry : entry = .handed row.number observation ∨
      entry = .recorded row.number observation ∧ (rules.classifier observation).isSome = true)
    (hidentity : SameIdentity row.payload observation)
    (hsound : HoldingsSound rules pending entries) :
    HoldingsSound rules (pending.delete id) (entry :: entries) := by
  have hheld := hsound.rows id row hrow
  have hnotHeld : ∀ number, Entry.isHeldAs number entry = false ∧
      Entry.isInsertedAs number entry = false ∧ Entry.isHeld entry = false := by
    rcases hentry with rfl | ⟨rfl, _⟩
    · exact fun _ => ⟨rfl, rfl, rfl⟩
    · exact fun _ => ⟨rfl, rfl, rfl⟩
  refine ⟨fun number => ?_, fun number => ?_, fun number hnumber => ?_, fun other found hfound => ?_,
    fun number handed hhanded => ?_, fun number recorded hrecorded => ?_⟩
  · have hdeleted := pendingAs_delete hrow number
    have hplaced := hsound.placed number
    rw [List.countP_cons, List.countP_cons, List.countP_cons, (hnotHeld number).2.1]
    rcases hentry with rfl | ⟨rfl, _⟩
    · simp only [Entry.isHandedAs, Entry.isRecordedAs, decide_eq_true_eq, Bool.false_eq_true,
        if_false]
      omega
    · simp only [Entry.isHandedAs, Entry.isRecordedAs, decide_eq_true_eq, Bool.false_eq_true,
        if_false]
      omega
  · rw [List.countP_cons, (hnotHeld number).1]
    exact hsound.once number
  · rw [List.countP_cons, (hnotHeld number).2.2] at hnumber
    rw [List.countP_cons, (hnotHeld number).1]
    exact hsound.fresh number hnumber
  · rw [Table.get_delete] at hfound
    split at hfound
    · cases hfound
    · exact List.mem_cons_of_mem _ (hsound.rows other found hfound)
  · cases hhanded with
    | head =>
      rcases hentry with heq | ⟨heq, _⟩
      · cases heq
        exact ⟨row.payload, List.mem_cons_of_mem _ hheld, hidentity⟩
      · cases heq
    | tail _ hhanded =>
      obtain ⟨held, hmem, hsame⟩ := hsound.handed number handed hhanded
      exact ⟨held, List.mem_cons_of_mem _ hmem, hsame⟩
  · cases hrecorded with
    | head =>
      rcases hentry with heq | ⟨heq, hclassifier⟩
      · cases heq
      · cases heq
        exact ⟨hclassifier, row.payload, List.mem_cons_of_mem _ hheld, hidentity⟩
    | tail _ hrecorded =>
      obtain ⟨hclassifier, held, hmem, hsame⟩ := hsound.recorded number recorded hrecorded
      exact ⟨hclassifier, held, List.mem_cons_of_mem _ hmem, hsame⟩

/-- The row of a held observation goes after a step that leaves held observations alone. -/
theorem settles_delete {before middle : Store} {id : String} {row : PendingRow}
    {observation : Observation} {entry : Entry} (hsettles : Settles rules before middle)
    (hrow : middle.pendingFirewall.get id = some row)
    (hentry : entry = .handed row.number observation ∨
      entry = .recorded row.number observation ∧ (rules.classifier observation).isSome = true)
    (hidentity : SameIdentity row.payload observation) :
    Settles rules before ((middle.note entry).deletePending id) := by
  have hentries : ((middle.note entry).deletePending id).holdingEntries =
      entry :: middle.holdingEntries := by
    rcases hentry with rfl | ⟨rfl, _⟩
    · rfl
    · rfl
  refine ⟨fun hsound => ?_, ?_, fun other hnone => ?_⟩
  · rw [Store.HoldingsSound, hentries]
    exact settle_sound hrow hentry hidentity (hsettles.sound hsound)
  · rw [hentries, ← hsettles.held]
    rcases hentry with rfl | ⟨rfl, _⟩
    · rfl
    · rfl
  · change (middle.pendingFirewall.delete id).get other = none
    rw [Table.get_delete, hsettles.pending other hnone, ite_self]

theorem handOver_settles {observation : Observation} {counter : Option Counter} {now : Time}
    {id : String} {row : PendingRow} {store next : Store}
    (hcounter : counter.bind Counter.tally = none)
    (hrow : store.pendingFirewall.get id = some row)
    (hidentity : SameIdentity row.payload observation)
    (hnext : rules.handOver config observation counter now id row.number store = some next) :
    Settles rules store next := by
  simp only [Rules.handOver, Option.bind_eq_bind, Option.bind_eq_some_iff] at hnext
  obtain ⟨ingested, hingested, hnext⟩ := hnext
  have hintake := ingestOne_intake hingested
  cases counter with
  | none =>
    cases hnext
    refine settles_delete hintake.settles ?_ (.inl rfl) hidentity
    rw [hintake.pending, hrow]
  | some counter =>
    cases hnext
    have hcounted := hintake.trans (incrementSaturating_intake hcounter ingested 1)
    refine settles_delete hcounted.settles ?_ (.inl rfl) hidentity
    rw [hcounted.pending, hrow]

theorem SameIdentity.refl (observation : Observation) : SameIdentity observation observation :=
  ⟨rfl, rfl, rfl⟩

theorem release_settles {counter : Option Counter} {now : Time} {store next : Store} {id : String}
    (hcounter : counter.bind Counter.tally = none)
    (hnext : rules.release config counter now store id = some next) :
    Settles rules store next := by
  unfold Rules.release at hnext
  split at hnext
  next =>
    cases hnext
    exact .refl store
  next row hrow => exact handOver_settles hcounter hrow (.refl row.payload) hnext

theorem capFlush_settles {now : Time} {store last : Store} {ids : List String}
    (hrun : run (rules.release config (some .provenancePendingCapFlush) now) store ids =
      some last) : Settles rules store last :=
  run_settles (fun _ _ _ hstep => release_settles rfl hstep) hrun

theorem shrinkHeld_settles {now : Time} {turns : Nat} {store next : Store}
    (hnext : rules.shrinkHeld config now turns store = some next) :
    Settles rules store next := by
  induction turns generalizing store with
  | zero =>
    cases hnext
    exact .refl _
  | succ turns ih =>
    unfold Rules.shrinkHeld at hnext
    split at hnext
    · cases hnext
      exact .refl _
    · obtain ⟨middle, hmiddle, hnext⟩ := Option.bind_eq_some_iff.mp hnext
      exact (capFlush_settles hmiddle).trans (ih hnext)

theorem flushExpiredFirewall_settles {now : Time} {store next : Store}
    (hnext : rules.flushExpiredFirewall config now store = some next) :
    Settles rules store next :=
  run_settles (fun _ _ _ hstep => release_settles rfl hstep) hnext

theorem recordLocalOnly_classifier {found : Observation} {now : Time} {store next : Store}
    (hnext : rules.recordLocalOnly config found now store = some next) :
    (rules.classifier found).isSome = true := by
  simp only [Rules.recordLocalOnly, Option.bind_eq_bind, Option.bind_eq_some_iff] at hnext
  obtain ⟨classifier, hclassifier, _⟩ := hnext
  exact Option.isSome_iff_exists.mpr ⟨classifier, hclassifier⟩

theorem resolveOne_settles {currentHealth : Option Bool} {verdict : Observation → Verdict}
    {now : Time} {store next : Store} {id : String}
    (hnext : rules.resolveOne config currentHealth verdict now store id = some next) :
    Settles rules store next := by
  unfold Rules.resolveOne at hnext
  split at hnext
  next =>
    cases hnext
    exact .refl store
  next row hrow =>
    split at hnext
    next =>
      cases hnext
      exact .refl store
    next => exact release_settles rfl hnext
    next =>
      split at hnext
      next =>
        cases hnext
        exact .refl store
      next => exact release_settles rfl hnext
      next => exact release_settles rfl hnext
      next => exact handOver_settles rfl hrow (by exact ⟨rfl, rfl, rfl⟩) hnext
      next proof =>
        simp only [Option.bind_eq_bind, Option.bind_eq_some_iff] at hnext
        obtain ⟨attributes, _, recorded, hrecorded, hnext⟩ := hnext
        cases hnext
        have hintake := recordLocalOnly_intake hrecorded
        refine settles_delete hintake.settles ?_
          (.inr ⟨rfl, recordLocalOnly_classifier hrecorded⟩) ⟨rfl, rfl, rfl⟩
        rw [hintake.pending, hrow]

theorem resolvePendingFirewall_settles {currentHealth : Option Bool}
    {verdict : Observation → Verdict} {now : Time} {store next : Store}
    (hnext : rules.resolvePendingFirewall config currentHealth verdict now store = some next) :
    Settles rules store next :=
  run_settles (fun _ _ _ hstep => resolveOne_settles hstep) hnext

/-! ### Holding -/

def AllInserted (store : Store) : Prop :=
  ∀ number observation inserted, .held number observation inserted ∈ store.holdingEntries →
    inserted = true

theorem Settles.allInserted {before after : Store} (hsettles : Settles rules before after)
    (hinserted : AllInserted before) : AllInserted after := by
  intro number observation inserted hentry
  have hheld : .held number observation inserted ∈ after.holdingEntries.filter Entry.isHeld :=
    List.mem_filter.mpr ⟨hentry, rfl⟩
  rw [hsettles.held] at hheld
  exact hinserted number observation inserted (List.mem_filter.mp hheld).1

theorem holdingEntries_insertHeld (observation : Observation) (now : Time) (store : Store) :
    (insertHeld observation now store).holdingEntries =
      .held store.holdings observation
        (store.pendingFirewall.get observation.fingerprint).isNone :: store.holdingEntries :=
  rfl

theorem pendingAs_insert {pending : Table String PendingRow} {id : String}
    (habsent : pending.get id = none) (row : PendingRow) (number : Nat) :
    pendingAs (pending.insert id row) number =
      pendingAs pending number + if row.number = number then 1 else 0 :=
  Table.total_insert _ habsent row

theorem insertHeld_sound (observation : Observation) (now : Time) {store : Store}
    (hsound : store.HoldingsSound rules) :
    (insertHeld observation now store).HoldingsSound rules := by
  have hnumber : store.holdings = store.holdingEntries.countP Entry.isHeld := holdings_eq store
  have hunused := hsound.fresh store.holdings (le_of_eq hnumber.symm)
  rw [Store.HoldingsSound, holdingEntries_insertHeld]
  refine ⟨fun number => ?_, fun number => ?_, fun number hfresh => ?_, fun id row hrow => ?_,
    fun number handed hhanded => ?_, fun number recorded hrecorded => ?_⟩
  · have hplaced := hsound.placed number
    change pendingAs (store.pendingFirewall.insert observation.fingerprint _) number + _ + _ = _
    cases hget : store.pendingFirewall.get observation.fingerprint with
    | none =>
      rw [pendingAs_insert hget]
      simp only [List.countP_cons, Entry.isHandedAs, Entry.isRecordedAs, Entry.isInsertedAs,
        Option.isNone_none, Bool.and_true, decide_eq_true_eq, Bool.false_eq_true, if_false]
      omega
    | some row =>
      have hkeys : observation.fingerprint ∈ store.pendingFirewall.keys := by
        rw [Table.mem_keys, hget]
        rfl
      rw [Table.insert, dif_pos hkeys]
      simp only [List.countP_cons, Entry.isHandedAs, Entry.isRecordedAs, Entry.isInsertedAs,
        Option.isNone_some, Bool.and_false, Bool.false_eq_true, if_false]
      omega
  · have honce := hsound.once number
    rw [List.countP_cons]
    by_cases heq : store.holdings = number
    · rw [← heq, hunused]
      split <;> omega
    · rw [if_neg (by simpa [Entry.isHeldAs] using heq)]
      exact honce
  · have hheld : Entry.isHeld (.held store.holdings observation
        (store.pendingFirewall.get observation.fingerprint).isNone) = true := rfl
    rw [List.countP_cons, if_pos hheld] at hfresh
    have hne : store.holdings ≠ number := by omega
    rw [List.countP_cons, if_neg (by simpa [Entry.isHeldAs] using hne)]
    exact hsound.fresh number (by omega)
  · change (store.pendingFirewall.insert observation.fingerprint _).get id = some row at hrow
    rw [Table.get_insert] at hrow
    split at hrow
    next heq =>
      cases hget : store.pendingFirewall.get observation.fingerprint with
      | none =>
        rw [hget] at hrow
        cases hrow
        exact List.mem_cons_self
      | some old =>
        rw [hget] at hrow
        cases hrow
        exact List.mem_cons_of_mem _ (hsound.rows _ old hget)
    next => exact List.mem_cons_of_mem _ (hsound.rows id row hrow)
  · cases hhanded with
    | tail _ hhanded =>
      obtain ⟨held, hmem, hsame⟩ := hsound.handed number handed hhanded
      exact ⟨held, List.mem_cons_of_mem _ hmem, hsame⟩
  · cases hrecorded with
    | tail _ hrecorded =>
      obtain ⟨hclassifier, held, hmem, hsame⟩ := hsound.recorded number recorded hrecorded
      exact ⟨hclassifier, held, List.mem_cons_of_mem _ hmem, hsame⟩

theorem insertHeld_allInserted {observation : Observation} {now : Time} {store : Store}
    (hfree : store.pendingFirewall.get observation.fingerprint = none)
    (hinserted : AllInserted store) : AllInserted (insertHeld observation now store) := by
  intro number other inserted hentry
  rw [holdingEntries_insertHeld, hfree] at hentry
  cases hentry with
  | head => rfl
  | tail _ hentry => exact hinserted number other inserted hentry

structure Holds (rules : Rules) (observation : Observation) (before after : Store) : Prop where
  sound : before.HoldingsSound rules → after.HoldingsSound rules
  inserted : before.pendingFirewall.get observation.fingerprint = none → AllInserted before →
    AllInserted after
  pending : ∀ id, id ≠ observation.fingerprint → before.pendingFirewall.get id = none →
    after.pendingFirewall.get id = none

theorem holdFirewallObservation_holds {observation : Observation} {now : Time}
    {store next : Store}
    (hnext : rules.holdFirewallObservation config observation now store = some next) :
    Holds rules observation store next := by
  unfold Rules.holdFirewallObservation at hnext
  split at hnext
  · cases hnext
  · obtain ⟨capped, hcapped, hnext⟩ := Option.bind_eq_some_iff.mp hnext
    have hsettles : Settles rules (insertHeld observation now store) next :=
      (capFlush_settles hcapped).trans (shrinkHeld_settles hnext)
    refine ⟨fun hsound => hsettles.sound (insertHeld_sound observation now hsound),
      fun hfree hinserted => hsettles.allInserted (insertHeld_allInserted hfree hinserted),
      fun id hne hnone => hsettles.pending id ?_⟩
    change (store.pendingFirewall.insert observation.fingerprint _).get id = none
    rw [Table.get_insert, if_neg hne, hnone]

/-! ### Ingestion -/

/-- The fingerprint under which a call holds an observation, if it does. -/
def Rules.candidate (rules : Rules) (call : IngestCall) (observation : Observation) :
    Option String :=
  (rules.enriched call observation).bind fun found =>
    if brokerCandidate found && call.healthy found then some found.fingerprint else none

theorem received_settles (found : Observation) (store : Store) :
    Settles rules store (store.note (.received found)) :=
  .of_same rfl rfl

theorem ingestFound_cases {call : IngestCall} {store next : Store} {observation : Observation}
    (hnext : rules.ingestFound config call store observation = some next) :
    (rules.candidate call observation = none ∧ Settles rules store next) ∨
      ∃ found, rules.candidate call observation = some found.fingerprint ∧
        Holds rules found store next := by
  obtain ⟨found, hfound, hnext⟩ := Option.bind_eq_some_iff.mp hnext
  have hreceived : Settles rules store (store.note (.received found)) :=
    received_settles found store
  simp only at hnext
  split at hnext
  next hcandidate =>
    have hholds : Holds rules found (store.note (.received found)) next :=
      holdFirewallObservation_holds hnext
    refine .inr ⟨found, ?_, ⟨fun hsound => hholds.sound (hreceived.sound hsound),
      fun hfree hinserted => hholds.inserted hfree (hreceived.allInserted hinserted),
      hholds.pending⟩⟩
    rw [Rules.candidate, hfound, Option.bind_some, if_pos hcandidate]
  next hother =>
    refine .inl ⟨?_, hreceived.trans (ingestOne_intake hnext).settles⟩
    rw [Rules.candidate, hfound, Option.bind_some, if_neg hother]

theorem ingestLoop_sound {call : IngestCall} {observations : List Observation}
    {store last : Store} (hrun : run (rules.ingestFound config call) store observations = some last)
    (hsound : store.HoldingsSound rules) : last.HoldingsSound rules := by
  induction observations generalizing store with
  | nil =>
    cases hrun
    exact hsound
  | cons observation rest ih =>
    obtain ⟨next, hnext, hrest⟩ := Option.bind_eq_some_iff.mp hrun
    apply ih hrest
    rcases ingestFound_cases hnext with ⟨_, hsettles⟩ | ⟨found, _, hholds⟩
    · exact hsettles.sound hsound
    · exact hholds.sound hsound

/-- A call whose candidates have fingerprints of their own, none of them pending, inserts
a row for each. -/
theorem ingestLoop_allInserted {call : IngestCall} {observations : List Observation}
    {store last : Store} (hrun : run (rules.ingestFound config call) store observations = some last)
    (hdistinct : (observations.filterMap (rules.candidate call)).Nodup)
    (hfree : ∀ id ∈ observations.filterMap (rules.candidate call),
      store.pendingFirewall.get id = none)
    (hinserted : AllInserted store) : AllInserted last := by
  induction observations generalizing store with
  | nil =>
    cases hrun
    exact hinserted
  | cons observation rest ih =>
    obtain ⟨next, hnext, hrest⟩ := Option.bind_eq_some_iff.mp hrun
    rcases ingestFound_cases hnext with ⟨hnone, hsettles⟩ | ⟨found, hsome, hholds⟩
    · rw [List.filterMap_cons_none hnone] at hdistinct hfree
      exact ih hrest hdistinct (fun id hid => hsettles.pending id (hfree id hid))
        (hsettles.allInserted hinserted)
    · rw [List.filterMap_cons_some hsome] at hdistinct hfree
      obtain ⟨hnew, hdistinct⟩ := List.nodup_cons.mp hdistinct
      refine ih hrest hdistinct (fun id hid => hholds.pending id ?_ ?_) ?_
      · rintro rfl
        exact hnew hid
      · exact hfree id (List.mem_cons_of_mem _ hid)
      · exact hholds.inserted (hfree _ List.mem_cons_self) hinserted

/-! ### Runs -/

theorem ingest_sound {call : IngestCall} {store next : Store}
    (hnext : rules.ingest config call store = some next) (hsound : store.HoldingsSound rules) :
    next.HoldingsSound rules ∧
      ((call.observations.filterMap (rules.candidate call)).Nodup →
        (∀ id ∈ call.observations.filterMap (rules.candidate call),
          store.pendingFirewall.get id = none) → AllInserted store → AllInserted next) := by
  simp only [Rules.ingest, Option.bind_eq_bind, Option.bind_eq_some_iff] at hnext
  obtain ⟨ingested, hingested, resolved, hresolved, expired, hexpired, flushed, hflushed,
    hnext⟩ := hnext
  have hafter : Settles rules ingested flushed :=
    ((resolvePendingFirewall_settles hresolved).trans
      (flushExpiredFirewall_settles hexpired)).trans (flushDueRows_intake hflushed).settles
  have hlast : Settles rules ingested next := by
    split at hnext
    · cases hnext
      refine hafter.trans ?_
      exact .of_same rfl rfl
    · cases hnext
      exact hafter
  exact ⟨hlast.sound (ingestLoop_sound hingested hsound), fun hdistinct hfree hinserted =>
    hlast.allInserted (ingestLoop_allInserted hingested hdistinct hfree hinserted)⟩

theorem recordFimScan_settles {call : FimScanCall} {store next : Store}
    (hnext : rules.recordFimScan config call store = some next) : Settles rules store next := by
  simp only [Rules.recordFimScan, Option.bind_eq_bind, Option.bind_eq_some_iff] at hnext
  obtain ⟨ingested, hingested, recorded, hrecorded, hnext⟩ := hnext
  have hloop : Settles rules store ingested :=
    run_settles (fun store observation _ hstep =>
      (received_settles observation store).trans (ingestOne_intake hstep).settles) hingested
  have hbaseline : Settles rules ingested recorded := by
    unfold recordBaseline at hrecorded
    split at hrecorded
    · obtain ⟨rows, _, rfl⟩ := Option.map_eq_some_iff.mp hrecorded
      exact .of_same rfl rfl
    · cases hrecorded
      exact .refl _
  exact (hloop.trans hbaseline).trans (flushDueRows_intake hnext).settles

theorem reconcileLocalOnly_settles (store : Store) :
    Settles rules store (rules.reconcileLocalOnly store) := by
  simp only [Rules.reconcileLocalOnly]
  generalize store.staleDiagnostics.length + _ = suppressed
  split
  · exact .of_same rfl rfl
  · exact .of_same rfl rfl

theorem markDelivery_settles (call : MarkCall) (store : Store) :
    Settles rules store (markDelivery config call store) := by
  refine List.foldlRecOn call.sentIds (call.markOne config) (Settles.refl store)
    fun middle hsettles id _ => hsettles.trans ?_
  simp only [MarkCall.markOne]
  split
  · exact .of_same rfl rfl
  · split
    · exact .of_same rfl rfl
    · exact .refl middle

def Call.isIngest : Call → Bool
  | .ingest _ => true
  | _ => false

theorem body_settles {call : Call} {store next : Store} (hother : call.isIngest = false)
    (hnext : call.body rules config store = some next) : Settles rules store next := by
  cases call with
  | ingest call => cases hother
  | flushDue now => exact (flushDueRows_intake hnext).settles
  | reconcilePendingFirewall now => exact flushExpiredFirewall_settles hnext
  | recordFimScan call => exact recordFimScan_settles hnext
  | annotatePendingFim call =>
    cases hnext
    exact .of_same rfl rfl
  | pendingBatch call =>
    cases hnext
    exact reconcileLocalOnly_settles store
  | markDelivery call =>
    cases hnext
    exact markDelivery_settles call store

theorem begun_settles (call : Call) (store : Store) : Settles rules store (call.begun store) := by
  cases call with
  | ingest call => exact .of_same rfl rfl
  | pendingBatch call => exact .of_same rfl rfl
  | _ => exact .refl store

theorem attempt_settles {call : Call} (hother : call.isIngest = false) (commits : Bool)
    (store : Store) : Settles rules store (call.attempt rules config commits store).1 := by
  rcases attempt_cases rules config call commits store with ⟨next, hbody, hattempt⟩ | hattempt
  · rw [hattempt]
    exact (begun_settles call store).trans (body_settles hother hbody)
  · rw [hattempt]
    exact begun_settles call store

theorem settle_settles (exchange : Exchange) (sentIds : List String) (store : Store) :
    Settles rules store (exchange.settle rules config sentIds store).store := by
  unfold Exchange.settle
  cases exchange.acknowledged sentIds with
  | error message => exact attempt_settles rfl _ store
  | ok results =>
    simp only
    split
    · exact attempt_settles rfl _ store
    · exact attempt_settles rfl _ store

theorem sendOnce_settles (exchange : Exchange) (store : Store) :
    Settles rules store (rules.sendOnce config exchange store).store := by
  have hprepared : Settles rules store (rules.prepare config exchange store).1 := by
    have hflushed : Settles rules store
        ((Call.flushDue exchange.flushNow).attempt rules config exchange.flushCommits store).1 :=
      attempt_settles rfl _ store
    simp only [Rules.prepare]
    split
    · exact hflushed
    · split
      · exact hflushed.trans (attempt_settles rfl _ _)
      · split
        · exact hflushed.trans (attempt_settles rfl _ _)
        · exact hflushed.trans (attempt_settles rfl _ _)
  simp only [Rules.sendOnce]
  split
  · exact hprepared
  · exact hprepared.trans (settle_settles exchange _ _)

/-- The observations that a call holds have fingerprints of their own, and none of them is
held already. -/
def HoldsApart (rules : Rules) (before : Store) (action : Action) (_ : Store) : Prop :=
  match action with
  | .call (.ingest call) true =>
    (call.observations.filterMap (rules.candidate call)).Nodup ∧
      ∀ id ∈ call.observations.filterMap (rules.candidate call),
        before.pendingFirewall.get id = none
  | _ => True

/-- A holding is pending, handed over once, or recorded once. -/
def ExactlyOnePlace (store : Store) (number : Nat) : Prop :=
  let pending := pendingAs store.pendingFirewall number
  let handed := store.ledger.countP (Entry.isHandedAs number)
  let recorded := store.ledger.countP (Entry.isRecordedAs number)
  (pending = 1 ∧ handed = 0 ∧ recorded = 0) ∨ (pending = 0 ∧ handed = 1 ∧ recorded = 0) ∨
    (pending = 0 ∧ handed = 0 ∧ recorded = 1)

/-- What is true of the held observations in every state of a run. -/
structure PlacesHoldings (rules : Rules) (store : Store) : Prop where
  place : ∀ number observation inserted, .held number observation inserted ∈ store.ledger →
    ExactlyOnePlace store number
  apart : ∀ number, store.ledger.countP (Entry.isHeldAs number) ≤ 1
  pending : ∀ id row, store.pendingFirewall.get id = some row →
    .held row.number row.payload true ∈ store.ledger
  handed : ∀ number observation, .handed number observation ∈ store.ledger →
    ∃ held, .held number held true ∈ store.ledger ∧ SameIdentity held observation
  recorded : ∀ number observation, .recorded number observation ∈ store.ledger →
    (rules.classifier observation).isSome = true ∧
      ∃ held, .held number held true ∈ store.ledger ∧ SameIdentity held observation

theorem countP_holdings {counted : Entry → Bool}
    (hcounted : ∀ entry, counted entry = true → entry.isHolding = true) (store : Store) :
    store.holdingEntries.countP counted = store.ledger.countP counted := by
  rw [Store.holdingEntries, List.countP_filter]
  apply List.countP_congr
  intro entry _
  cases hentry : counted entry with
  | false => simp
  | true => simp [hcounted entry hentry]

theorem mem_holdings {store : Store} {entry : Entry} (hholding : entry.isHolding = true) :
    entry ∈ store.holdingEntries ↔ entry ∈ store.ledger := by
  rw [Store.holdingEntries, List.mem_filter]
  exact and_iff_left hholding

theorem countP_inserted {entries : List Entry} {number : Nat} {observation : Observation}
    (hentry : .held number observation true ∈ entries)
    (honce : entries.countP (Entry.isHeldAs number) ≤ 1) :
    entries.countP (Entry.isInsertedAs number) = 1 := by
  have hpositive : 0 < entries.countP (Entry.isInsertedAs number) :=
    List.countP_pos_iff.mpr ⟨_, hentry, by simp [Entry.isInsertedAs]⟩
  have hle : entries.countP (Entry.isInsertedAs number) ≤
      entries.countP (Entry.isHeldAs number) := by
    apply List.countP_mono_left
    intro entry _ hinserted
    cases entry with
    | held other found inserted =>
      simp only [Entry.isInsertedAs, Bool.and_eq_true] at hinserted
      exact hinserted.1
    | _ => cases hinserted
  omega

theorem placesHoldings_of_sound {store : Store} (hsound : store.HoldingsSound rules)
    (hinserted : AllInserted store) : PlacesHoldings rules store where
  place number observation inserted hentry := by
    have hmem : .held number observation inserted ∈ store.holdingEntries :=
      (mem_holdings rfl).mpr hentry
    obtain rfl := hinserted number observation inserted hmem
    have hone := countP_inserted hmem (hsound.once number)
    have hplaced := hsound.placed number
    rw [hone, countP_holdings (by intro entry; cases entry <;> simp [Entry.isHandedAs,
        Entry.isHolding]),
      countP_holdings (by intro entry; cases entry <;> simp [Entry.isRecordedAs,
        Entry.isHolding])] at hplaced
    simp only [ExactlyOnePlace]
    omega
  apart number := by
    rw [← countP_holdings (by intro entry; cases entry <;> simp [Entry.isHeldAs,
      Entry.isHolding])]
    exact hsound.once number
  pending id row hrow := (mem_holdings rfl).mp (hsound.rows id row hrow)
  handed number observation hentry := by
    obtain ⟨held, hmem, hsame⟩ := hsound.handed number observation ((mem_holdings rfl).mpr hentry)
    exact ⟨held, (mem_holdings rfl).mp hmem, hsame⟩
  recorded number observation hentry := by
    obtain ⟨hclassifier, held, hmem, hsame⟩ :=
      hsound.recorded number observation ((mem_holdings rfl).mpr hentry)
    exact ⟨hclassifier, held, (mem_holdings rfl).mp hmem, hsame⟩

theorem holdingsSound_empty : ({} : Store).HoldingsSound rules where
  placed _ := rfl
  once _ := Nat.zero_le 1
  fresh _ _ := rfl
  rows _ _ hrow := nomatch hrow
  handed _ _ hentry := nomatch hentry
  recorded _ _ hentry := nomatch hentry

theorem step_holdings (store : Store) (action : Action) (next : Store)
    (hstore : store.HoldingsSound rules ∧ AllInserted store)
    (happart : HoldsApart rules store action next)
    (hnext : step rules config store action = some next) :
    next.HoldingsSound rules ∧ AllInserted next := by
  have hsettled : Settles rules store next → next.HoldingsSound rules ∧ AllInserted next :=
    fun hsettles => ⟨hsettles.sound hstore.1, hsettles.allInserted hstore.2⟩
  cases action with
  | send exchange =>
    cases hnext
    exact hsettled (sendOnce_settles exchange store)
  | call call commits =>
    cases hnext
    cases call with
    | ingest call =>
      have hbegun : Settles rules store ((Call.ingest call).begun store) := begun_settles _ store
      rcases attempt_cases rules config (.ingest call) commits store with
        ⟨next, hbody, hattempt⟩ | hattempt
      · cases commits with
        | false => cases hattempt
        | true =>
          rw [hattempt]
          obtain ⟨hsound, hinserted⟩ := ingest_sound hbody (hbegun.sound hstore.1)
          exact ⟨hsound, hinserted happart.1 happart.2 (hbegun.allInserted hstore.2)⟩
      · rw [hattempt]
        exact ⟨hbegun.sound hstore.1, hbegun.allInserted hstore.2⟩
    | _ => exact hsettled (attempt_settles rfl commits store)

/-- In every run whose calls hold observations apart, every held observation is in exactly
one of its three places. -/
theorem placesHoldings_of_holdsApart (rules : Rules) (config : Config) (actions : List Action)
    (happart : EachStep (step rules config) (HoldsApart rules) {} actions) :
    Always (step rules config) (PlacesHoldings rules) {} actions :=
  (always_of_eachStep step_holdings ⟨holdingsSound_empty, nofun⟩ happart).imp
    fun _ hstore => placesHoldings_of_sound hstore.1 hstore.2

/-! ### Two commands of one instant -/

instance (before : Store) (action : Action) (after : Store) :
    Decidable (HoldsApart rules before action after) := by
  unfold HoldsApart
  split
  · infer_instance
  · infer_instance

/-- A command of the firewall broker by the process with the identity. -/
def brokerCommand (pid : Int) : Observation where
  kind := "auth.sudo_command"
  fingerprint := "6f1ed002ab5595859014ebf0951522d9b7c1c9a1c2e3f5d5c9f5e4d6d2a6c9f0"
  observedAt := "2026-08-11T02:44:00Z"
  severity := .high
  summary := "Privileged sudo command executed"
  attributes := [("attribution_provenance", .str "none"), ("audit_session", .int 9),
    ("boot_id", .str "0f1e2d3c4b5a69788796a5b4c3d2e1f0"),
    ("command", .str "/usr/local/sbin/mojo-firewall-broker"), ("monotonic", .int 5000000),
    ("producer_pid", .int pid)]
  recommendation := "review"
  aggregate := false

/-- Two processes run the broker at one instant: the fingerprint of both is the same, and
the second observation is in no place at all. -/
theorem not_placesHoldings_sameInstant :
    ¬ Always (step sampleRules { sensorId := "web1" }) (PlacesHoldings sampleRules) {}
      [.call (.ingest { now := 0, observations := [brokerCommand 411, brokerCommand 412],
                        healthy := fun _ => true }) true] := by
  refine not_always_of_run (fun store => store.ledger.all fun entry =>
    match entry with
    | .held number _ _ => pendingAs store.pendingFirewall number +
        store.ledger.countP (Entry.isHandedAs number) +
        store.ledger.countP (Entry.isRecordedAs number) = 1
    | _ => true) (fun store hplaces => ?_) ?_
  · refine List.all_eq_true.mpr fun entry hentry => ?_
    cases entry with
    | held number observation inserted =>
      have hplace := hplaces.place number observation inserted hentry
      simp only [ExactlyOnePlace] at hplace
      simp only [decide_eq_true_eq]
      omega
    | _ => rfl
  · decide +kernel

theorem placesHoldings_expired :
    Always (step sampleRules { sensorId := "web1" }) (PlacesHoldings sampleRules) {}
      [.call (.ingest { now := 0, observations := [brokerCommand 411],
                        healthy := fun _ => true }) true,
        .call (.reconcilePendingFirewall (seconds 31)) true] :=
  placesHoldings_of_holdsApart sampleRules { sensorId := "web1" } _ (by decide)

end DjangoMojo.Sensor
