import DjangoMojo.Cases.CounterRuns

/-! # Counters do not depend on the order

Without campaigns a receipt counts in the case of its own key. The counters of a key are then
a function of the receipts that have been contributed, in whatever order and with whatever
judgements between them.
-/

namespace DjangoMojo.Cases

open Foundation

structure CaseKey where
  installation : Nat
  correlationKey : String
  windowKey : String
  deriving DecidableEq

structure Counters where
  receiptCount : Nat
  occurrenceCount : Nat
  distinctCount : Nat
  sampleCount : Nat
  overflowCount : Nat
  firstSeen : Time
  lastSeen : Time
  operations : Nat
  tiers : Nat

namespace Figures

def key (figures : Figures) : CaseKey :=
  ⟨figures.installationKey, figures.correlationKey, figures.windowKey⟩

def counters (figures : Figures) : Counters where
  receiptCount := figures.receiptCount
  occurrenceCount := figures.occurrenceCount
  distinctCount := figures.distinctCount
  sampleCount := figures.sampleCount
  overflowCount := figures.overflowCount
  firstSeen := figures.firstSeen
  lastSeen := figures.lastSeen
  operations := countSum figures.operations
  tiers := countSum figures.tiers

theorem Counts.counters_eq {inputs : List CaseInput} {figures other : Figures}
    (hfirst : figures.Counts inputs inputs) (hsecond : other.Counts inputs inputs) :
    figures.counters = other.counters := by
  have hreceipts : figures.receiptCount = other.receiptCount :=
    hfirst.receipts.trans hsecond.receipts.symm
  have hoccurrences : figures.occurrenceCount = other.occurrenceCount :=
    hfirst.occurrences.trans hsecond.occurrences.symm
  have hdistinct : figures.distinctCount = other.distinctCount :=
    hfirst.distinct.trans hsecond.distinct.symm
  have hsampled : figures.sampleCount = other.sampleCount ∧
      figures.overflowCount = other.overflowCount := by
    obtain ⟨_, _, _, hdivided, hsamples, hcapped, hspilled, _⟩ := hfirst
    obtain ⟨_, _, _, hdivided', hsamples', hcapped', hspilled', _⟩ := hsecond
    by_cases hoverflow : figures.overflowCount = 0
    · by_cases hoverflow' : other.overflowCount = 0
      · omega
      · have hfull := hspilled' hoverflow'
        omega
    · have hfull := hspilled hoverflow
      by_cases hoverflow' : other.overflowCount = 0
      · omega
      · have hfull' := hspilled' hoverflow'
        omega
  have hfirstSeen : figures.firstSeen = other.firstSeen := by
    obtain ⟨input, hinput, hobserved⟩ := List.mem_map.mp hfirst.first_mem
    obtain ⟨input', hinput', hobserved'⟩ := List.mem_map.mp hsecond.first_mem
    refine le_antisymm ?_ ?_
    · rw [← hobserved']
      exact hfirst.first_le input' hinput'
    · rw [← hobserved]
      exact hsecond.first_le input hinput
  have hlastSeen : figures.lastSeen = other.lastSeen := by
    obtain ⟨input, hinput, hobserved⟩ := List.mem_map.mp hfirst.last_mem
    obtain ⟨input', hinput', hobserved'⟩ := List.mem_map.mp hsecond.last_mem
    refine le_antisymm ?_ ?_
    · rw [← hobserved]
      exact hsecond.last_ge input hinput
    · rw [← hobserved']
      exact hfirst.last_ge input' hinput'
  have hoperations : countSum figures.operations = countSum other.operations :=
    hfirst.operations.trans hsecond.operations.symm
  have htiers : countSum figures.tiers = countSum other.tiers :=
    hfirst.tiers.trans hsecond.tiers.symm
  rw [counters, counters, hreceipts, hoccurrences, hdistinct, hsampled.1, hsampled.2, hfirstSeen,
    hlastSeen, hoperations, htiers]

end Figures

def keyOf (naming : Naming) (event : SensorEvent) (receipt : ReceiptRow) : CaseKey :=
  let input := inputOf naming event receipt
  ⟨receipt.apiKey, input.correlationKey, input.windowKey⟩

theorem caseInput_sensorKind {naming : Naming} {apiKey count : Nat} {sensorId : String}
    {observed : Time} (evidence : Evidence) :
    (caseInput naming apiKey sensorId observed count evidence).sensorKind ≠ .campaign := by
  cases evidence with
  | web => exact fun hkind => nomatch hkind
  | deployment => exact fun hkind => nomatch hkind
  | change => exact fun hkind => nomatch hkind
  | overflow => exact fun hkind => nomatch hkind
  | ssh => exact fun hkind => nomatch hkind
  | sudoCommand => exact fun hkind => nomatch hkind
  | sudoFailure => exact fun hkind => nomatch hkind
  | serviceError => exact fun hkind => nomatch hkind
  | oom => exact fun hkind => nomatch hkind

namespace Database

variable (naming : Naming) (events : Nat → SensorEvent)

def collected (db : Database) (key : CaseKey) : List CaseInput :=
  (db.receipts.rows.filter fun entry => entry.2.caseContributedAt.isSome &&
    keyOf naming (events entry.1) entry.2 = key).map fun entry =>
      inputOf naming (events entry.1) entry.2

def countersOf (db : Database) (key : CaseKey) : Option Counters :=
  (db.caseOf key.installation key.correlationKey key.windowKey).map
    fun found => found.2.figures.counters

/-- There is no campaign, one case of a key, and each contributed receipt is linked to the
case of its key. -/
structure Keyed (db : Database) : Prop extends db.Counted naming events where
  noCampaign : ∀ id row, db.cases.get id = some row → row.sensorKind ≠ .campaign
  unique : ∀ first second row other, db.cases.get first = some row →
    db.cases.get second = some other → row.figures.key = other.figures.key → first = second
  placed : ∀ receipt linked, db.receipts.get receipt = some linked →
    linked.caseContributedAt.isSome → ∃ id row, linked.mojosecCase = some id ∧
      db.cases.get id = some row ∧ row.figures.key = keyOf naming (events receipt) linked

variable {naming events} {db next : Database}

theorem caseOf_key {key : CaseKey} {id : Nat} {row : CaseRow}
    (hfound : db.caseOf key.installation key.correlationKey key.windowKey = some (id, row)) :
    db.cases.get id = some row ∧ row.figures.key = key := by
  refine ⟨caseOf_get hfound, ?_⟩
  obtain ⟨_, hkey⟩ := List.mem_filter.mp (List.mem_of_mem_head? hfound)
  simp only [Bool.and_eq_true, decide_eq_true_iff] at hkey
  obtain ⟨⟨hinstallation, hcorrelation⟩, hwindow⟩ := hkey
  change CaseKey.mk row.installationKey row.correlationKey row.windowKey = key
  rw [hinstallation, hcorrelation, hwindow]

theorem caseOf_none {key : CaseKey} {id : Nat} {row : CaseRow}
    (hfound : db.caseOf key.installation key.correlationKey key.windowKey = none)
    (hrow : db.cases.get id = some row) : row.figures.key ≠ key := by
  intro hkey
  rw [caseOf, List.head?_eq_none_iff, filter, List.filter_eq_nil_iff] at hfound
  refine hfound (id, row) (Table.mem_rows.mpr hrow) ?_
  subst hkey
  simp [Figures.key, CaseRow.figures]

theorem Keyed.of_countsAlike (hkeyed : db.Keyed naming events) (halike : CountsAlike db next) :
    next.Keyed naming events := by
  have hbefore : ∀ id row, next.cases.get id = some row →
      ∃ before, db.cases.get id = some before ∧ before.figures = row.figures := by
    intro id row hrow
    have hfigures := halike.figures id
    rw [hrow, Option.map_some] at hfigures
    exact Option.map_eq_some_iff.mp hfigures.symm
  refine ⟨hkeyed.toCounted.of_countsAlike halike, ?_, ?_, ?_⟩
  · intro id row hrow
    obtain ⟨before, hget, hfigures⟩ := hbefore id row hrow
    have hsame : before.sensorKind = row.sensorKind := congrArg Figures.sensorKind hfigures
    rw [← hsame]
    exact hkeyed.noCampaign id before hget
  · intro first second row other hrow hother hkey
    obtain ⟨before, hget, hfigures⟩ := hbefore first row hrow
    obtain ⟨before', hget', hfigures'⟩ := hbefore second other hother
    exact hkeyed.unique first second before before' hget hget' (by rw [hfigures, hfigures', hkey])
  · intro receipt linked hlinked hcontributed
    rw [halike.receipts] at hlinked
    obtain ⟨id, row, hid, hrow, hkey⟩ := hkeyed.placed receipt linked hlinked hcontributed
    have hfigures := halike.figures id
    rw [hrow, Option.map_some] at hfigures
    obtain ⟨found, hfound, hsame⟩ := Option.map_eq_some_iff.mp hfigures
    exact ⟨id, found, hid, hfound, by rw [hsame, hkey]⟩

theorem Keyed.locks {settings : Settings} {call : Contribution} {receipt : ReceiptRow} {id : Nat}
    {before : CaseRow} (hkeyed : db.Keyed naming events)
    (hinput : call.input settings receipt = inputOf naming (events call.receipt) receipt)
    (hlocks : db.Locks settings call receipt id before) :
    before.figures.key = keyOf naming (events call.receipt) receipt ∧
      before.sensorKind ≠ .campaign ∧
      ∀ other row, db.cases.get other = some row →
        row.figures.key = keyOf naming (events call.receipt) receipt → other = id := by
  unfold Locks at hlocks
  rw [hinput] at hlocks
  rcases hlocks with hfound | ⟨hfound, habsent, hnew⟩
  · obtain ⟨hget, hkey⟩ := @caseOf_key db (keyOf naming (events call.receipt) receipt) id before
      hfound
    exact ⟨hkey, hkeyed.noCampaign id before hget, fun other row hrow hsame =>
      hkeyed.unique other id row before hrow hget (hsame.trans hkey.symm)⟩
  · subst hnew
    refine ⟨rfl, caseInput_sensorKind _, fun other row hrow hsame => ?_⟩
    exact absurd hsame
      (@caseOf_none db (keyOf naming (events call.receipt) receipt) other row hfound hrow)

theorem Keyed.contribute {settings : Settings} {call : Contribution} {calls : List Call}
    (hkeyed : db.Keyed naming events) (hoffers : Offers naming events db settings call)
    (hnext : db.contribute settings call = some (next, calls)) : next.Keyed naming events := by
  have hcounted := hkeyed.toCounted.contribute hoffers hnext
  rcases contribute_cases hnext with ⟨rfl, _⟩ | ⟨receipt, written, before, projected, isDistinct,
    transition, hreceipt, hopen, hlocks, hcases, _, _, _, _, _, hreceipts⟩
  · exact hkeyed
  have hinput := hoffers.input hreceipt hopen
  obtain ⟨hkey, hkind, honly⟩ := hkeyed.locks hinput hlocks
  have hfigures := db.figures_contributedRow settings (call.input settings receipt) written before
    projected isDistinct
  generalize db.contributedRow settings (call.input settings receipt) projected isDistinct written
    before = row at hcases hfigures
  have hrowKey : row.figures.key = keyOf naming (events call.receipt) receipt := by
    rw [hfigures]
    exact hkey
  have hrowKind : row.sensorKind ≠ .campaign := by
    have hsame : row.sensorKind = before.sensorKind := congrArg Figures.sensorKind hfigures
    rwa [hsame]
  refine ⟨hcounted, fun id found hfound => ?_, fun first second found other hfound hother hsame => ?_,
    fun key linked hlinked hcontributed => ?_⟩
  · rw [hcases, Table.get_put] at hfound
    split at hfound
    · cases hfound
      exact hrowKind
    · exact hkeyed.noCampaign id found hfound
  · rw [hcases, Table.get_put] at hfound hother
    split at hfound
    next hfirst =>
      cases hfound
      split at hother
      next hsecond => rw [hfirst, hsecond]
      · rw [hfirst]
        exact (honly second other hother (hsame.symm.trans hrowKey)).symm
    next hfirst =>
      split at hother
      next hsecond =>
        cases hother
        rw [hsecond]
        exact honly first found hfound (hsame.trans hrowKey)
      · exact hkeyed.unique first second found other hfound hother hsame
  · rw [hreceipts, Table.get_put] at hlinked
    split at hlinked
    next heq =>
      cases hlinked
      refine ⟨written, row, rfl, by rw [hcases, Table.get_put, if_pos rfl], ?_⟩
      rw [hrowKey, heq]
      rfl
    · obtain ⟨id, found, hid, hfound, hplaced⟩ := hkeyed.placed key linked hlinked hcontributed
      by_cases hwritten : id = written
      · subst hwritten
        refine ⟨id, row, hid, by rw [hcases, Table.get_put, if_pos rfl], ?_⟩
        have hsame : before.figures.key = found.figures.key := by
          rcases hlocks with hlocked | ⟨_, habsent, _⟩
          · rw [Option.some.inj ((caseOf_get hlocked).symm.trans hfound)]
          · cases habsent.symm.trans hfound
        rw [hrowKey, ← hkey, hsame, hplaced]
      · exact ⟨id, found, hid, by rw [hcases, Table.get_put, if_neg hwritten]; exact hfound, hplaced⟩

theorem Keyed.inputs_eq {id : Nat} {row : CaseRow} (hkeyed : db.Keyed naming events)
    (hrow : db.cases.get id = some row) :
    db.inputs naming events id = db.collected naming events row.figures.key := by
  rw [inputs, collected]
  refine congrArg (List.map _) (List.filter_congr fun entry hentry => ?_)
  have hreceipt := Table.mem_rows.mp hentry
  rw [Bool.eq_iff_iff, Bool.and_eq_true, decide_eq_true_iff, decide_eq_true_iff]
  constructor
  · intro hlinked
    have hcontributed : entry.2.caseContributedAt.isSome := by
      by_contra hopen
      rw [Option.not_isSome_iff_eq_none] at hopen
      cases ((hkeyed.links entry.1 entry.2 hreceipt).unlinked hopen).symm.trans hlinked
    obtain ⟨other, found, hother, hfound, hkey⟩ :=
      hkeyed.placed entry.1 entry.2 hreceipt hcontributed
    cases hlinked.symm.trans hother
    cases hrow.symm.trans hfound
    exact ⟨hcontributed, hkey.symm⟩
  · rintro ⟨hcontributed, hkey⟩
    obtain ⟨other, found, hother, hfound, hplaced⟩ :=
      hkeyed.placed entry.1 entry.2 hreceipt hcontributed
    rw [hother, hkeyed.unique other id found row hfound hrow (hplaced.trans hkey)]

theorem Keyed.countersOf_cases (hkeyed : db.Keyed naming events) (key : CaseKey) :
    (db.countersOf key = none ∧ db.collected naming events key = []) ∨
      ∃ figures : Figures, db.countersOf key = some figures.counters ∧
        figures.Counts (db.collected naming events key) (db.collected naming events key) := by
  unfold countersOf
  cases hfound : db.caseOf key.installation key.correlationKey key.windowKey with
  | none =>
    refine .inl ⟨rfl, ?_⟩
    rw [collected, List.map_eq_nil_iff, List.filter_eq_nil_iff]
    intro entry hentry hselected
    rw [Bool.and_eq_true, decide_eq_true_iff] at hselected
    obtain ⟨id, row, _, hrow, hplaced⟩ :=
      hkeyed.placed entry.1 entry.2 (Table.mem_rows.mp hentry) hselected.1
    exact caseOf_none hfound hrow (hplaced.trans hselected.2)
  | some found =>
    obtain ⟨id, row⟩ := found
    obtain ⟨hrow, hkey⟩ := caseOf_key hfound
    refine .inr ⟨row.figures, rfl, ?_⟩
    have hcounts := hkeyed.exact id row hrow (hkeyed.noCampaign id row hrow)
    rwa [hkeyed.inputs_eq hrow, hkey] at hcounts

/-! ### The receipts of a run -/

/-- The receipts are the original ones, from the same senders. -/
structure SameReceipts (origin : Table Nat ReceiptRow) (db : Database) : Prop where
  keys : db.receipts.keys = origin.keys
  senders : ∀ receipt, (db.receipts.get receipt).map (fun row => (row.apiKey, row.sensorId)) =
    (origin.get receipt).map fun row => (row.apiKey, row.sensorId)

def isContributed (db : Database) (receipt : Nat) : Bool :=
  (db.receipts.get receipt).any fun row => row.caseContributedAt.isSome

theorem SameReceipts.contribute {origin : Table Nat ReceiptRow} {settings : Settings}
    {call : Contribution} {calls : List Call} (hsame : db.SameReceipts origin)
    (hnext : db.contribute settings call = some (next, calls)) : next.SameReceipts origin := by
  rcases contribute_cases hnext with ⟨rfl, _⟩ | ⟨receipt, written, before, projected, isDistinct,
    transition, hreceipt, _, _, _, _, _, _, _, _, hreceipts⟩
  · exact hsame
  refine ⟨?_, fun key => ?_⟩
  · rw [hreceipts, Table.keys_put (by rw [hreceipt]; rfl), hsame.keys]
  · rw [← hsame.senders key, hreceipts, Table.get_put]
    split
    next heq =>
      rw [heq, hreceipt]
      rfl
    · rfl

theorem SameReceipts.collected_eq {origin : Table Nat ReceiptRow} (hsame : db.SameReceipts origin)
    (key : CaseKey) : db.collected naming events key = origin.keys.filterMap fun receipt =>
      (origin.get receipt).bind fun row =>
        if db.isContributed receipt && keyOf naming (events receipt) row = key then
          some (inputOf naming (events receipt) row) else none := by
  rw [collected, Table.rows, hsame.keys, List.filter_filterMap, List.map_filterMap]
  refine List.filterMap_congr fun receipt _ => ?_
  have hsenders := hsame.senders receipt
  unfold isContributed
  cases hrow : db.receipts.get receipt with
  | none =>
    rw [hrow, Option.map_none] at hsenders
    rw [Option.map_eq_none_iff.mp hsenders.symm]
    rfl
  | some row =>
    rw [hrow, Option.map_some] at hsenders
    obtain ⟨first, hfirst, hsender⟩ := Option.map_eq_some_iff.mp hsenders.symm
    obtain ⟨hinstallation, hsensor⟩ := Prod.mk.inj hsender
    have hinput : inputOf naming (events receipt) first = inputOf naming (events receipt) row := by
      rw [inputOf, inputOf, hinstallation, hsensor]
    have hkey : keyOf naming (events receipt) first = keyOf naming (events receipt) row := by
      rw [keyOf, keyOf, hinput, hinstallation]
    rw [hfirst, Option.map_some, Option.bind_some, Option.any_some, hkey, hinput,
      Option.filter_some]
    split
    · rfl
    · rfl

end Database

/-! ### Runs -/

def Action.isCampaign : Action → Bool
  | .campaign .. => true
  | _ => false

/-- The step offers what the events are judged as, and is no sweep of campaigns. -/
def Contributes (naming : Naming) (events : Nat → SensorEvent) (system : System) (action : Action)
    (next : System) : Prop :=
  Offers naming events system action next ∧ action.isCampaign = false

theorem step_keyed {naming : Naming} {events : Nat → SensorEvent} {origin : Table Nat ReceiptRow}
    {system next : System} {action : Action}
    (hkeyed : system.db.Keyed naming events ∧ system.db.SameReceipts origin)
    (hoffers : Contributes naming events system action next)
    (hnext : step system action = some next) :
    next.db.Keyed naming events ∧ next.db.SameReceipts origin := by
  by_cases hjudges : action.judges
  · have halike := step_countsAlike hjudges hnext
    refine ⟨hkeyed.1.of_countsAlike halike, ?_, ?_⟩
    · rw [halike.receipts]
      exact hkeyed.2.keys
    · rw [halike.receipts]
      exact hkeyed.2.senders
  cases action with
  | contribute settings call =>
    obtain ⟨⟨db, calls⟩, hcontribute, hresult⟩ := Option.map_eq_some_iff.mp hnext
    cases hresult
    exact ⟨hkeyed.1.contribute hoffers.1 hcontribute, hkeyed.2.contribute hcontribute⟩
  | campaign => cases hoffers.2
  | corroborate => exact absurd rfl hjudges
  | project => exact absurd rfl hjudges
  | confirm => exact absurd rfl hjudges
  | settle => exact absurd rfl hjudges
  | drop => exact absurd rfl hjudges

theorem keyed_of_run {naming : Naming} {events : Nat → SensorEvent} {receipts : Table Nat ReceiptRow}
    (hopen : receipts.All ReceiptRow.IsOpen) {actions : List Action} {last : System}
    (hoffers : EachStep step (Contributes naming events) (System.start receipts) actions)
    (hrun : run step (System.start receipts) actions = some last) :
    last.db.Keyed naming events ∧ last.db.SameReceipts receipts := by
  have hstart : (System.start receipts).db.Keyed naming events ∧
      (System.start receipts).db.SameReceipts receipts := by
    refine ⟨⟨Database.Counted.start hopen, ?_, ?_, fun receipt row hreceipt hcontributed => ?_⟩,
      ⟨rfl, fun _ => rfl⟩⟩
    · exact fun _ _ hrow => nomatch hrow
    · exact fun _ _ _ _ hrow => nomatch hrow
    · rw [(hopen receipt row hreceipt).1] at hcontributed
      cases hcontributed
  have halways : Always step (fun system => system.db.Keyed naming events ∧
      system.db.SameReceipts receipts) (System.start receipts) actions :=
    @always_of_eachStep _ _ step _ (Contributes naming events)
      (fun _ _ _ hstate hcondition hnext => step_keyed hstate hcondition hnext) _ _ hstart hoffers
  exact halways.of_run hrun

/-- Every case counts the receipts that are linked to it, in every state of every run. Runs
that contribute the same receipts give every key the same counters. -/
theorem counters_exact {naming : Naming} {events : Nat → SensorEvent}
    {receipts : Table Nat ReceiptRow} (hopen : receipts.All ReceiptRow.IsOpen)
    {actions : List Action}
    (hoffers : EachStep step (Offers naming events) (System.start receipts) actions) :
    Always step (fun system => system.db.CountsExactly naming events) (System.start receipts)
        actions ∧
      ∀ first second last other,
        EachStep step (Contributes naming events) (System.start receipts) first →
        EachStep step (Contributes naming events) (System.start receipts) second →
        run step (System.start receipts) first = some last →
        run step (System.start receipts) second = some other →
        (∀ receipt, last.db.isContributed receipt = other.db.isContributed receipt) →
        ∀ key, last.db.countersOf key = other.db.countersOf key := by
  refine ⟨?_, fun first second last other hfirst hsecond hlast hother hsame key => ?_⟩
  · have halways : Always step (fun system => system.db.Counted naming events)
        (System.start receipts) actions :=
      @always_of_eachStep _ _ step _ (Offers naming events)
        (fun _ _ _ hstate hcondition hnext => step_counted hstate hcondition hnext) _ _
        (Database.Counted.start hopen) hoffers
    exact halways.imp fun _ hcounted => hcounted.exact
  · obtain ⟨hkeyed, hreceipts⟩ := keyed_of_run hopen hfirst hlast
    obtain ⟨hkeyed', hreceipts'⟩ := keyed_of_run hopen hsecond hother
    have hcollected : last.db.collected naming events key = other.db.collected naming events key := by
      rw [hreceipts.collected_eq, hreceipts'.collected_eq]
      simp only [hsame]
    rcases hkeyed.countersOf_cases key with ⟨hnone, hempty⟩ | ⟨figures, hsome, hcounts⟩
    · rcases hkeyed'.countersOf_cases key with ⟨hnone', _⟩ | ⟨figures', _, hcounts'⟩
      · rw [hnone, hnone']
      · rw [← hcollected, hempty] at hcounts'
        exact absurd hcounts'.first_mem List.not_mem_nil
    · rcases hkeyed'.countersOf_cases key with ⟨_, hempty⟩ | ⟨figures', hsome', hcounts'⟩
      · rw [hcollected, hempty] at hcounts
        exact absurd hcounts.first_mem List.not_mem_nil
      · rw [← hcollected] at hcounts'
        rw [hsome, hsome', hcounts.counters_eq hcounts']

def probeEvents : Nat → SensorEvent
  | 1 => ⟨0, 1000, impossiblePath⟩
  | 2 => ⟨0, 1, .change "system_config"⟩
  | _ => ⟨0, 1, impossiblePath⟩

theorem counters_exact_probedAgain :
    Always step (fun system => system.db.CountsExactly plainNaming probeEvents)
      (System.start threeReceipts) probedAgain := by
  have hopen : threeReceipts.All ReceiptRow.IsOpen :=
    ((Table.All.empty.put 1 ⟨rfl, rfl⟩).put 2 ⟨rfl, rfl⟩).put 3 ⟨rfl, rfl⟩
  have hoffers : EachStep step (Offers plainNaming probeEvents) (System.start threeReceipts)
      probedAgain :=
    fun _ _ => ⟨fun _ _ _ => ⟨rfl, rfl⟩, fun _ _ => ⟨fun _ _ _ => ⟨rfl, rfl⟩,
      fun _ _ => ⟨trivial, fun _ _ => ⟨fun _ _ _ => ⟨rfl, rfl⟩, trivial⟩⟩⟩⟩
  exact (counters_exact hopen hoffers).1

end DjangoMojo.Cases
