import Mathlib.Data.List.Dedup
import DjangoMojo.Cases.Counters

/-! # Exact counters in every order

In every run each case counts exactly the receipts that are linked to it. Two runs that
contribute the same receipts end with the same counters, whatever stands between the
contributions.
-/

namespace DjangoMojo.Cases

open Foundation

def breakdownSum (inputs : List CaseInput) : Nat :=
  (inputs.map fun input => input.breakdown.elim 0 BreakdownInput.count).sum

/-- The figures count the inputs; the first and the last observation are among those
seen. -/
structure Figures.Counts (inputs seen : List CaseInput) (figures : Figures) : Prop where
  receipts : figures.receiptCount = inputs.length
  occurrences : figures.occurrenceCount = (inputs.map CaseInput.occurrences).sum
  distinct : figures.distinctCount = (inputs.map CaseInput.sampleKey).dedup.length
  divided : figures.sampleCount + figures.overflowCount = figures.distinctCount
  sampled : figures.sampleCount = figures.samples.length
  capped : figures.samples.length ≤ maxSamples
  spilled : figures.overflowCount ≠ 0 → figures.samples.length = maxSamples
  first_mem : figures.firstSeen ∈ seen.map CaseInput.observed
  first_le : ∀ input ∈ inputs, figures.firstSeen ≤ input.observed
  last_mem : figures.lastSeen ∈ seen.map CaseInput.observed
  last_ge : ∀ input ∈ inputs, input.observed ≤ figures.lastSeen
  operationKeys : (figures.operations.map Prod.fst).Nodup
  operations : countSum figures.operations = breakdownSum inputs
  tierKeys : (figures.tiers.map Prod.fst).Nodup
  tiers : countSum figures.tiers = breakdownSum inputs

namespace Figures.Counts

variable {inputs seen : List CaseInput} {figures : Figures} {input : CaseInput}

theorem perm {others : List CaseInput} (hcounts : figures.Counts inputs inputs)
    (hperm : inputs.Perm others) : figures.Counts others others where
  receipts := hcounts.receipts.trans hperm.length_eq
  occurrences := hcounts.occurrences.trans (hperm.map _).sum_eq
  distinct := hcounts.distinct.trans (hperm.map _).dedup.length_eq
  divided := hcounts.divided
  sampled := hcounts.sampled
  capped := hcounts.capped
  spilled := hcounts.spilled
  first_mem := (hperm.map _).mem_iff.mp hcounts.first_mem
  first_le input hinput := hcounts.first_le input (hperm.mem_iff.mpr hinput)
  last_mem := (hperm.map _).mem_iff.mp hcounts.last_mem
  last_ge input hinput := hcounts.last_ge input (hperm.mem_iff.mpr hinput)
  operationKeys := hcounts.operationKeys
  operations := hcounts.operations.trans (hperm.map _).sum_eq
  tierKeys := hcounts.tierKeys
  tiers := hcounts.tiers.trans (hperm.map _).sum_eq

theorem min_mem {times : List Time} {first second : Time} (hfirst : first ∈ times)
    (hsecond : second ∈ times) : min first second ∈ times ∧ max first second ∈ times := by
  rcases le_total first second with hle | hle
  · rw [min_eq_left hle, max_eq_right hle]
    exact ⟨hfirst, hsecond⟩
  · rw [min_eq_right hle, max_eq_left hle]
    exact ⟨hsecond, hfirst⟩

theorem add_samples {isDistinct : Bool} (hcounts : figures.Counts inputs seen)
    (hdistinct : isDistinct = true ↔ input.sampleKey ∉ inputs.map CaseInput.sampleKey) :
    (figures.add input isDistinct).distinctCount =
        ((input :: inputs).map CaseInput.sampleKey).dedup.length ∧
      (figures.add input isDistinct).sampleCount + (figures.add input isDistinct).overflowCount =
        (figures.add input isDistinct).distinctCount ∧
      (figures.add input isDistinct).sampleCount = (figures.add input isDistinct).samples.length ∧
      (figures.add input isDistinct).samples.length ≤ maxSamples ∧
      ((figures.add input isDistinct).overflowCount ≠ 0 →
        (figures.add input isDistinct).samples.length = maxSamples) := by
  have hdivided := hcounts.divided
  have hsampled := hcounts.sampled
  have hcapped := hcounts.capped
  have hspilled := hcounts.spilled
  rw [List.map_cons]
  cases isDistinct with
  | false =>
    have hmem : input.sampleKey ∈ inputs.map CaseInput.sampleKey := by simpa using hdistinct
    rw [List.dedup_cons_of_mem hmem, ← hcounts.distinct]
    simp only [Figures.add, Bool.false_and, Bool.false_eq_true, if_false, Nat.add_zero,
      List.take_of_length_le hcapped]
    exact ⟨trivial, hdivided, hsampled, hcapped, hspilled⟩
  | true =>
    have hmem : input.sampleKey ∉ inputs.map CaseInput.sampleKey := by simpa using hdistinct
    rw [List.dedup_cons_of_notMem hmem, List.length_cons, ← hcounts.distinct]
    by_cases hroom : figures.samples.length < maxSamples
    · have hzero : figures.overflowCount = 0 := by
        by_contra hoverflow
        rw [hspilled hoverflow] at hroom
        exact absurd hroom (lt_irrefl _)
      have hlength : (figures.samples ++ [input.sample]).length ≤ maxSamples := by
        rw [List.length_append, List.length_singleton]
        exact hroom
      simp only [Figures.add, hroom, decide_true, Bool.true_and, if_true, Bool.not_true,
        Bool.and_false, Bool.false_eq_true, if_false, List.take_of_length_le hlength]
      refine ⟨trivial, ?_, trivial, hlength, fun hoverflow => absurd hzero hoverflow⟩
      rw [List.length_append, List.length_singleton]
      omega
    · have hfull : figures.samples.length = maxSamples := by omega
      simp only [Figures.add, hroom, decide_false, Bool.and_false, Bool.false_eq_true, if_false,
        Bool.not_false, Bool.and_true, if_true, List.take_of_length_le hcapped]
      exact ⟨trivial, by omega, hsampled, hcapped, fun _ => hfull⟩

/-- A breakdown with what the occurrence adds to it. -/
def tallied (input : CaseInput) (cap : Nat) (counts : List (String × Nat))
    (key : BreakdownInput → String) : List (String × Nat) :=
  match input.breakdown with
  | some info => tally cap counts (key info) info.count
  | none => counts

theorem add {isDistinct : Bool} (hcounts : figures.Counts inputs seen)
    (hseen : ∀ other ∈ seen, other ∈ input :: inputs)
    (hdistinct : isDistinct = true ↔ input.sampleKey ∉ inputs.map CaseInput.sampleKey) :
    (figures.add input isDistinct).Counts (input :: inputs) (input :: inputs) := by
  have hobserved : input.observed ∈ (input :: inputs).map CaseInput.observed :=
    List.mem_map_of_mem List.mem_cons_self
  have hmem {time : Time} (htime : time ∈ seen.map CaseInput.observed) :
      time ∈ (input :: inputs).map CaseInput.observed := by
    obtain ⟨other, hother, heq⟩ := List.mem_map.mp htime
    exact List.mem_map.mpr ⟨other, hseen other hother, heq⟩
  have hdetail : ∀ cap (counts : List (String × Nat)) (key : BreakdownInput → String),
      (counts.map Prod.fst).Nodup → countSum counts = breakdownSum inputs →
      ((tallied input cap counts key).map Prod.fst).Nodup ∧
      countSum (tallied input cap counts key) = breakdownSum (input :: inputs) := by
    intro cap counts key hnodup hsum
    unfold tallied
    have hcons : breakdownSum (input :: inputs) =
        input.breakdown.elim 0 BreakdownInput.count + breakdownSum inputs := by
      simp [breakdownSum]
    cases hbreakdown : input.breakdown with
    | none =>
      rw [hbreakdown, Option.elim_none, Nat.zero_add] at hcons
      exact ⟨hnodup, hsum.trans hcons.symm⟩
    | some info =>
      rw [hbreakdown, Option.elim_some] at hcons
      obtain ⟨hkeys, htally⟩ := @tally_exact cap counts (key info) info.count hnodup
      exact ⟨hkeys, by rw [htally, hsum, hcons, Nat.add_comm]⟩
  obtain ⟨hoperationKeys, hoperations⟩ := hdetail maxBreakdownOperations figures.operations
    BreakdownInput.operation hcounts.operationKeys hcounts.operations
  obtain ⟨htierKeys, htiers⟩ := hdetail maxBreakdownTiers figures.tiers BreakdownInput.tier
    hcounts.tierKeys hcounts.tiers
  obtain ⟨hdistinctCount, hdivided, hsampled, hcapped, hspilled⟩ :=
    hcounts.add_samples hdistinct
  exact {
    receipts := by simp [Figures.add, hcounts.receipts]
    occurrences := by simp [Figures.add, hcounts.occurrences, Nat.add_comm]
    distinct := hdistinctCount
    divided := hdivided
    sampled := hsampled
    capped := hcapped
    spilled := hspilled
    first_mem := (min_mem (hmem hcounts.first_mem) hobserved).1
    first_le := by
      intro other hother
      rcases List.mem_cons.mp hother with rfl | hother
      · exact min_le_right _ _
      · exact (min_le_left _ _).trans (hcounts.first_le other hother)
    last_mem := (min_mem (hmem hcounts.last_mem) hobserved).2
    last_ge := by
      intro other hother
      rcases List.mem_cons.mp hother with rfl | hother
      · exact le_max_right _ _
      · exact (hcounts.last_ge other hother).trans (le_max_left _ _)
    operationKeys := hoperationKeys
    operations := hoperations
    tierKeys := htierKeys
    tiers := htiers }

end Figures.Counts

/-! ### The receipts of a case -/

structure SensorEvent where
  observed : Time
  count : Nat
  evidence : Evidence

def inputOf (naming : Naming) (event : SensorEvent) (receipt : ReceiptRow) : CaseInput :=
  caseInput naming receipt.apiKey receipt.sensorId event.observed event.count event.evidence

variable (naming : Naming) (events : Nat → SensorEvent)

namespace Database

def inputs (db : Database) (id : Nat) : List CaseInput :=
  (db.receipts.rows.filter fun entry => entry.2.mojosecCase = some id).map
    fun entry => inputOf naming (events entry.1) entry.2

/-- Every case that is no campaign counts the receipts which are linked to it. -/
def CountsExactly (db : Database) : Prop :=
  ∀ id row, db.cases.get id = some row → row.sensorKind ≠ .campaign →
    row.figures.Counts (db.inputs naming events id) (db.inputs naming events id)

/-- A receipt is linked by its contribution, to a case that stays, under its sample key. -/
structure Links (db : Database) (receipt : Nat) (row : ReceiptRow) : Prop where
  unlinked : row.caseContributedAt = none → row.mojosecCase = none
  existing : ∀ id, row.mojosecCase = some id → (db.cases.get id).isSome
  sampled : ∀ id, row.mojosecCase = some id →
    row.caseSampleKey = (inputOf naming (events receipt) row).sampleKey

structure Counted (db : Database) : Prop where
  exact : db.CountsExactly naming events
  links : ∀ receipt row, db.receipts.get receipt = some row → db.Links naming events receipt row

variable {naming events} {db next : Database}

theorem Counted.frame (hcounted : db.Counted naming events) (hreceipts : next.receipts = db.receipts)
    (hcases : ∀ id row, next.cases.get id = some row → row.sensorKind ≠ .campaign →
      ∃ before, db.cases.get id = some before ∧ before.figures = row.figures)
    (hkept : ∀ id, (db.cases.get id).isSome → (next.cases.get id).isSome) :
    next.Counted naming events where
  exact id row hrow hkind := by
    obtain ⟨before, hbefore, hfigures⟩ := hcases id row hrow hkind
    have hcampaign : before.sensorKind ≠ .campaign := by
      have hsame : before.sensorKind = row.sensorKind := congrArg Figures.sensorKind hfigures
      rwa [hsame]
    have hsame : next.inputs naming events id = db.inputs naming events id := by
      rw [inputs, hreceipts, inputs]
    rw [← hfigures, hsame]
    exact hcounted.exact id before hbefore hcampaign
  links receipt row hrow := by
    rw [hreceipts] at hrow
    have hlinks := hcounted.links receipt row hrow
    exact ⟨hlinks.unlinked, fun id hid => hkept id (hlinks.existing id hid), hlinks.sampled⟩

structure CountsAlike (db next : Database) : Prop where
  receipts : next.receipts = db.receipts
  figures : ∀ id, (next.cases.get id).map CaseRow.figures = (db.cases.get id).map CaseRow.figures

theorem CountsAlike.refl (db : Database) : CountsAlike db db := ⟨rfl, fun _ => rfl⟩

theorem CountsAlike.of_write {id : Nat} {before row : CaseRow}
    (hreceipts : next.receipts = db.receipts) (hbefore : db.cases.get id = some before)
    (hnext : next.cases = db.cases.put id row) (hfigures : row.figures = before.figures) :
    CountsAlike db next := by
  refine ⟨hreceipts, fun other => ?_⟩
  rw [hnext, Table.get_put]
  split
  next heq => rw [heq, hbefore, Option.map_some, Option.map_some, hfigures]
  · rfl

theorem Counted.of_countsAlike (hcounted : db.Counted naming events)
    (halike : CountsAlike db next) : next.Counted naming events := by
  refine hcounted.frame halike.receipts (fun id row hrow _ => ?_) fun id hexists => ?_
  · have hfigures := halike.figures id
    rw [hrow, Option.map_some] at hfigures
    exact Option.map_eq_some_iff.mp hfigures.symm
  · have hfigures := congrArg Option.isSome (halike.figures id)
    rw [Option.isSome_map, Option.isSome_map] at hfigures
    rwa [hfigures]

theorem isDistinct_iff {id : Nat} {sampleKey : String} (hcounted : db.Counted naming events) :
    db.isDistinct id sampleKey = true ↔
      sampleKey ∉ (db.inputs naming events id).map CaseInput.sampleKey := by
  have hmem : sampleKey ∈ (db.inputs naming events id).map CaseInput.sampleKey ↔
      ∃ entry ∈ db.receipts.rows, entry.2.mojosecCase = some id ∧
        entry.2.caseSampleKey = sampleKey := by
    simp only [inputs, List.map_map, List.mem_map, List.mem_filter, decide_eq_true_iff,
      Function.comp_apply]
    refine exists_congr fun entry => ?_
    constructor
    · rintro ⟨⟨hentry, hlinked⟩, hkey⟩
      have hsampled := (hcounted.links entry.1 entry.2 (Table.mem_rows.mp hentry)).sampled id hlinked
      exact ⟨hentry, hlinked, hsampled.trans hkey⟩
    · rintro ⟨hentry, hlinked, hkey⟩
      have hsampled := (hcounted.links entry.1 entry.2 (Table.mem_rows.mp hentry)).sampled id hlinked
      exact ⟨⟨hentry, hlinked⟩, hsampled.symm.trans hkey⟩
  rw [hmem, isDistinct, List.all_eq_true]
  push Not
  refine forall₂_congr fun entry _ => ?_
  simp only [ne_eq, Bool.or_eq_true, decide_eq_true_iff, ← imp_iff_not_or]

theorem inputs_put {key written : Nat} {old row : ReceiptRow}
    (hold : db.receipts.get key = some old) (hunlinked : old.mojosecCase = none)
    (hlinked : row.mojosecCase = some written)
    (hreceipts : next.receipts = db.receipts.put key row) (id : Nat) :
    (next.inputs naming events id).Perm (if id = written then
      inputOf naming (events key) row :: db.inputs naming events id
      else db.inputs naming events id) := by
  obtain ⟨hbefore, hafter⟩ := Table.rows_put_perm hold row
  rw [← hreceipts] at hafter
  have hold' := (hbefore.filter fun entry => entry.2.mojosecCase = some id).map
    fun entry => inputOf naming (events entry.1) entry.2
  have hrow' := (hafter.filter fun entry => entry.2.mojosecCase = some id).map
    fun entry => inputOf naming (events entry.1) entry.2
  rw [List.filter_cons_of_neg (by simp [hunlinked])] at hold'
  by_cases hid : id = written
  · rw [if_pos hid]
    rw [List.filter_cons_of_pos (by simp [hlinked, hid]), List.map_cons] at hrow'
    exact hrow'.trans (hold'.symm.cons _)
  · rw [if_neg hid]
    rw [List.filter_cons_of_neg (by simpa [hlinked] using Ne.symm hid)] at hrow'
    exact hrow'.trans hold'.symm

theorem newCase_counts (receipt : ReceiptRow) (input : CaseInput) :
    (newCase receipt input).figures.Counts [] [input] where
  receipts := rfl
  occurrences := rfl
  distinct := by rw [List.map_nil, List.dedup_nil]; rfl
  divided := rfl
  sampled := rfl
  capped := Nat.zero_le maxSamples
  spilled hoverflow := absurd (by rfl) hoverflow
  first_mem := by
    rw [List.map_singleton, List.mem_singleton]
    rfl
  first_le other hother := absurd hother List.not_mem_nil
  last_mem := by
    rw [List.map_singleton, List.mem_singleton]
    rfl
  last_ge other hother := absurd hother List.not_mem_nil
  operationKeys := List.nodup_nil
  operations := rfl
  tierKeys := List.nodup_nil
  tiers := rfl

theorem Counted.inputs_of_absent {id : Nat} (hcounted : db.Counted naming events)
    (habsent : db.cases.get id = none) : db.inputs naming events id = [] := by
  rw [inputs, List.map_eq_nil_iff, List.filter_eq_nil_iff]
  intro entry hentry hlinked
  have hexists := (hcounted.links entry.1 entry.2 (Table.mem_rows.mp hentry)).existing id
    (by simpa using hlinked)
  rw [habsent] at hexists
  cases hexists

theorem Counted.counts_contributedRow {settings : Settings} {call : Contribution}
    {receipt : ReceiptRow} {id : Nat} {before : CaseRow} (projected : Nat)
    (hcounted : db.Counted naming events) (hlocks : db.Locks settings call receipt id before)
    (hinput : call.input settings receipt = inputOf naming (events call.receipt) receipt)
    (hkind : before.sensorKind ≠ .campaign) :
    let row := db.contributedRow settings (call.input settings receipt) projected
      (db.isDistinct id (call.input settings receipt).sampleKey) id before
    row.figures.Counts
      (inputOf naming (events call.receipt) receipt :: db.inputs naming events id)
      (inputOf naming (events call.receipt) receipt :: db.inputs naming events id) := by
  dsimp only
  rw [figures_contributedRow, hinput]
  rcases hlocks with hfound | ⟨_, habsent, hnew⟩
  · have hbefore := hcounted.exact id before (caseOf_get hfound) hkind
    exact hbefore.add (fun other hother => List.mem_cons_of_mem _ hother)
      (isDistinct_iff hcounted)
  · have hempty := hcounted.inputs_of_absent habsent
    have hdistinct := @isDistinct_iff _ _ _ id
      (inputOf naming (events call.receipt) receipt).sampleKey hcounted
    rw [hempty] at hdistinct ⊢
    rw [hnew, hinput]
    exact (newCase_counts receipt _).add (fun other hother => hother) hdistinct

/-- The evidence of a contribution that counts is what its event is judged as. -/
def Offers (naming : Naming) (events : Nat → SensorEvent) (db : Database) (settings : Settings)
    (call : Contribution) : Prop :=
  ∀ receipt, db.receipts.get call.receipt = some receipt → receipt.caseContributedAt = none →
    settings.naming = naming ∧ ⟨call.observed, call.count, call.evidence⟩ = events call.receipt

theorem Offers.input {settings : Settings} {call : Contribution} {receipt : ReceiptRow}
    (hoffers : Offers naming events db settings call)
    (hreceipt : db.receipts.get call.receipt = some receipt)
    (hopen : receipt.caseContributedAt = none) :
    call.input settings receipt = inputOf naming (events call.receipt) receipt := by
  obtain ⟨hnaming, hevent⟩ := hoffers receipt hreceipt hopen
  rw [Contribution.input, inputOf, ← hevent, hnaming]

theorem Counted.contribute {settings : Settings} {call : Contribution} {calls : List Call}
    (hcounted : db.Counted naming events) (hoffers : Offers naming events db settings call)
    (hnext : db.contribute settings call = some (next, calls)) : next.Counted naming events := by
  rcases contribute_cases hnext with ⟨rfl, _⟩ | ⟨receipt, written, before, projected, isDistinct,
    transition, hreceipt, hopen, hlocks, hcases, _, _, _, _, rfl, hreceipts⟩
  · exact hcounted
  have hinput := hoffers.input hreceipt hopen
  have hunlinked := (hcounted.links call.receipt receipt hreceipt).unlinked hopen
  have hinputs := @inputs_put naming events db next call.receipt written receipt _ hreceipt
    hunlinked rfl hreceipts
  refine ⟨fun id row hrow hkind => ?_, fun key linked hlinked => ?_⟩
  · rw [hcases, Table.get_put] at hrow
    by_cases hid : id = written
    · subst hid
      rw [if_pos rfl] at hrow
      cases hrow
      have hbefore : before.sensorKind ≠ .campaign := by
        have hsame : (db.contributedRow settings (call.input settings receipt) projected
            (db.isDistinct id (call.input settings receipt).sampleKey) id before).sensorKind =
            before.sensorKind :=
          congrArg Figures.sensorKind (db.figures_contributedRow settings _ id before projected _)
        rwa [← hsame]
      have hperm := hinputs id
      rw [if_pos rfl] at hperm
      exact (hcounted.counts_contributedRow projected hlocks hinput hbefore).perm hperm.symm
    · rw [if_neg hid] at hrow
      have hperm := hinputs id
      rw [if_neg hid] at hperm
      exact (hcounted.exact id row hrow hkind).perm hperm.symm
  · have hkept : ∀ id, (db.cases.get id).isSome → (next.cases.get id).isSome := by
      intro id hexists
      rw [hcases, Table.get_put]
      split
      · rfl
      · exact hexists
    rw [hreceipts, Table.get_put] at hlinked
    split at hlinked
    next heq =>
      cases hlinked
      subst heq
      refine ⟨fun hnone => (nomatch hnone), fun id hid => ?_, fun id _ => ?_⟩
      · cases hid
        rw [hcases, Table.get_put, if_pos rfl]
        rfl
      · exact congrArg CaseInput.sampleKey hinput
    · have hlinks := hcounted.links key linked hlinked
      exact ⟨hlinks.unlinked, fun id hid => hkept id (hlinks.existing id hid), hlinks.sampled⟩

/-! ### The other transactions -/

theorem figures_joinCampaign (campaign : Nat) (members : List Nat) (cases : Table Nat CaseRow)
    (id : Nat) : ((joinCampaign cases campaign members).get id).map CaseRow.figures =
      (cases.get id).map CaseRow.figures := by
  induction members generalizing cases with
  | nil => rfl
  | cons member rest ih =>
    rw [joinCampaign, List.foldl_cons, ← joinCampaign, ih, Table.get_modify]
    split
    · rw [Option.map_map]
      rfl
    · rfl

theorem Counted.campaignSweep {settings : Settings} {now : Time} {seen : Database}
    {key : CampaignKey} {fresh : Nat} (hcounted : db.Counted naming events)
    (hnext : db.campaignSweep settings now seen key fresh = some next) :
    next.Counted naming events := by
  rcases campaignSweep_cases hnext with rfl | ⟨stats, members, created, id, before, hrefresh,
    hcampaign, _⟩
  · exact hcounted
  subst hrefresh
  have hjoined := fun other => figures_joinCampaign id (members.map Prod.fst)
    (db.cases.put id (refreshedCampaign (members.map Prod.snd) stats before)) other
  refine hcounted.frame rfl (fun other row hrow hkind => ?_) fun other hother => ?_
  · have hfigures := hjoined other
    change Option.map _ ((db.refreshCampaign stats members created id before).cases.get other) = _
      at hfigures
    rw [hrow, Option.map_some, Table.get_put] at hfigures
    split at hfigures
    next heq =>
      have hsame : row.sensorKind = before.sensorKind :=
        congrArg Figures.sensorKind (Option.some.inj hfigures)
      exact absurd (hsame.trans hcampaign) hkind
    · obtain ⟨found, hfound, hsame⟩ := Option.map_eq_some_iff.mp hfigures.symm
      exact ⟨found, hfound, hsame⟩
  · have hfigures := congrArg Option.isSome (hjoined other)
    rw [Option.isSome_map, Option.isSome_map, Table.get_put] at hfigures
    change ((joinCampaign _ id (members.map Prod.fst)).get other).isSome
    rw [hfigures]
    split
    · rfl
    · exact hother

end Database

/-! ### Runs -/

/-- What contributes to a case is what the event of the receipt is judged as. -/
def Offers (naming : Naming) (events : Nat → SensorEvent) (system : System) (action : Action)
    (_ : System) : Prop :=
  match action with
  | .contribute settings call => Database.Offers naming events system.db settings call
  | _ => True

def Action.judges : Action → Bool
  | .contribute .. | .campaign .. => false
  | _ => true

theorem step_countsAlike {system next : System} {action : Action} (hjudges : action.judges)
    (hnext : step system action = some next) : Database.CountsAlike system.db next.db := by
  cases action with
  | contribute => cases hjudges
  | corroborate settings id =>
    simp only [step] at hnext
    split at hnext
    · generalize hresult : system.db.corroborate settings id = result at hnext
      obtain ⟨db, calls⟩ := result
      cases hnext
      rcases Database.corroborate_cases hresult with rfl | ⟨row, neighbors, transition, hrow, _,
        hcases, _, _, _, _, _, hreceipts⟩
      · exact .refl _
      · exact .of_write hreceipts hrow hcases rfl
    · cases hnext
  | project settings id publication =>
    simp only [step] at hnext
    split at hnext
    · cases hnext
      exact .refl _
    next hproject =>
      cases hnext
      obtain ⟨before, hbefore, _, _, _, hcases, _, hreceipts, _⟩ :=
        Database.projectCase_cases hproject
      exact .of_write hreceipts hbefore hcases rfl
  | confirm now id =>
    cases hnext
    refine ⟨rfl, fun other => ?_⟩
    rw [Database.confirmDispatch, Table.get_modify]
    split
    · rw [Option.map_map]
      rfl
    · rfl
  | campaign => cases hjudges
  | settle settings now id =>
    cases hnext
    rcases @Database.settle_cases system.db _ id settings now rfl with hsame | ⟨row, transition,
      hrow, hcases, _, _, _, hreceipts⟩
    · rw [hsame]
      exact .refl _
    · exact .of_write hreceipts hrow hcases rfl
  | drop call =>
    cases hnext
    exact .refl _

/-- Only contributions and campaign sweeps touch what a case counts. -/
theorem eachStep_countsAlike (system : System) (actions : List Action) :
    EachStep step (fun before action after =>
      action.judges → Database.CountsAlike before.db after.db) system actions :=
  EachStep.of_step (fun _ _ _ hnext hjudges => step_countsAlike hjudges hnext) system actions

theorem step_counted {naming : Naming} {events : Nat → SensorEvent} {system next : System}
    {action : Action} (hcounted : system.db.Counted naming events)
    (hoffers : Offers naming events system action next) (hnext : step system action = some next) :
    next.db.Counted naming events := by
  by_cases hjudges : action.judges
  · exact hcounted.of_countsAlike (step_countsAlike hjudges hnext)
  cases action with
  | contribute settings call =>
    obtain ⟨⟨db, calls⟩, hcontribute, hresult⟩ := Option.map_eq_some_iff.mp hnext
    cases hresult
    exact hcounted.contribute hoffers hcontribute
  | campaign settings now seen key fresh =>
    obtain ⟨db, hsweep, hresult⟩ := Option.map_eq_some_iff.mp hnext
    cases hresult
    exact hcounted.campaignSweep hsweep
  | corroborate => exact absurd rfl hjudges
  | project => exact absurd rfl hjudges
  | confirm => exact absurd rfl hjudges
  | settle => exact absurd rfl hjudges
  | drop => exact absurd rfl hjudges

def ReceiptRow.IsOpen (receipt : ReceiptRow) : Prop :=
  receipt.caseContributedAt = none ∧ receipt.mojosecCase = none

theorem Database.Counted.start {naming : Naming} {events : Nat → SensorEvent}
    {receipts : Table Nat ReceiptRow} (hopen : receipts.All ReceiptRow.IsOpen) :
    (System.start receipts).db.Counted naming events where
  exact _ _ hrow := nomatch hrow
  links key receipt hreceipt := by
    obtain ⟨_, hunlinked⟩ := hopen key receipt hreceipt
    refine ⟨fun _ => hunlinked, fun id hlinked => ?_, fun id hlinked => ?_⟩
    · cases hunlinked.symm.trans hlinked
    · cases hunlinked.symm.trans hlinked

end DjangoMojo.Cases
