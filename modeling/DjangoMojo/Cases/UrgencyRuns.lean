import DjangoMojo.Cases.Ratchet

/-! # The ratchet over whole runs

Every transaction moves the record of each case by a move of the ratchet, as long as no
contribution brings sustained warnings to a critical case. Runs keep what the ratchet keeps
under that condition, and lose it with the first step that does not meet it.
-/

namespace DjangoMojo.Cases

open Foundation

namespace Database

/-- The urgencies of the Events of a case, in the order of their creation. -/
def projections (db : Database) (id : Nat) : List Urgency :=
  (db.events.filter fun event => event.case = id).map ProjectedEvent.urgency

/-- The promotions that no receipt made: those by corroboration. -/
def corroborations (db : Database) (id : Nat) : Nat :=
  db.transitions.countP fun transition =>
    transition.case = id && transition.kind = .promoted && transition.receipt = none

def record (db : Database) (id : Nat) : Record :=
  ⟨(db.cases.get id).map CaseRow.standing, db.projections id, db.corroborations id⟩

variable {db next : Database} {id : Nat}

theorem projections_append {event : ProjectedEvent} (hevents : next.events = db.events ++ [event])
    (id : Nat) : next.projections id =
      db.projections id ++ if event.case = id then [event.urgency] else [] := by
  rw [projections, hevents, List.filter_append, List.map_append]
  by_cases hcase : event.case = id
  · simp [projections, hcase]
  · simp [projections, hcase]

theorem corroborations_append {transition : Transition}
    (htransitions : next.transitions = db.transitions ++ [transition]) (id : Nat) :
    next.corroborations id = db.corroborations id +
      if transition.case = id ∧ transition.kind = .promoted ∧ transition.receipt = none then 1
      else 0 := by
  rw [corroborations, htransitions, List.countP_append, List.countP_singleton]
  simp only [corroborations, Bool.and_eq_true, decide_eq_true_iff, and_assoc]

theorem record_eq (hcases : (next.cases.get id).map CaseRow.standing =
      (db.cases.get id).map CaseRow.standing)
    (hprojections : next.projections id = db.projections id)
    (hcorroborations : next.corroborations id = db.corroborations id) :
    next.record id = db.record id := by
  rw [record, record, hcases, hprojections, hcorroborations]

theorem caseOf_get {installation : Nat} {correlationKey windowKey : String} {row : CaseRow}
    (hfound : db.caseOf installation correlationKey windowKey = some (id, row)) :
    db.cases.get id = some row := by
  have hmem := List.mem_of_mem_head? hfound
  exact Table.mem_rows.mp (List.mem_filter.mp hmem).1

/-! ### Contributions -/

/-- The row that a contribution locks: the one of its window, or a new one. -/
def Locks (db : Database) (settings : Settings) (call : Contribution) (receipt : ReceiptRow)
    (id : Nat) (before : CaseRow) : Prop :=
  let input := call.input settings receipt
  let found := db.caseOf receipt.apiKey input.correlationKey input.windowKey
  found = some (id, before) ∨
    (found = none ∧ db.cases.get id = none ∧ before = newCase receipt input)

theorem contributionKind_ne_projection {created : Bool} {input : CaseInput}
    {before after : CaseRow} : contributionKind created input before after ≠ .projection := by
  unfold contributionKind
  split
  · split <;> decide
  · split <;> decide

theorem contribute_cases {settings : Settings} {call : Contribution} {calls : List Call}
    (hnext : db.contribute settings call = some (next, calls)) :
    (next = db ∧ ∃ receipt, db.receipts.get call.receipt = some receipt ∧
      receipt.caseContributedAt.isSome) ∨
    ∃ receipt id before events isDistinct transition,
      db.receipts.get call.receipt = some receipt ∧ receipt.caseContributedAt = none ∧
      db.Locks settings call receipt id before ∧
      next.cases = db.cases.put id
        (db.contributedRow settings (call.input settings receipt) events isDistinct id before) ∧
      next.events = db.events ∧ next.transitions = db.transitions ++ [transition] ∧
      transition.receipt = some call.receipt ∧ transition.kind ≠ .projection ∧
      isDistinct = db.isDistinct id (call.input settings receipt).sampleKey ∧
      next.receipts = db.receipts.put call.receipt { receipt with
        mojosecCase := some id, caseSampleKey := (call.input settings receipt).sampleKey
        caseContributedAt := some call.now } := by
  obtain ⟨receipt, hreceipt, hnext⟩ := Option.bind_eq_some_iff.mp hnext
  dsimp only at hnext
  split at hnext
  next hcontributed =>
    cases hnext
    exact .inl ⟨rfl, receipt, hreceipt, hcontributed⟩
  next hcontributed =>
  split at hnext
  · cases hnext
  next hfresh =>
  rw [Option.not_isSome_iff_eq_none] at hcontributed
  cases hnext
  refine .inr ⟨receipt, _, _, _, _, _, hreceipt, hcontributed, ?_, rfl, rfl, rfl, rfl,
    contributionKind_ne_projection, rfl, rfl⟩
  unfold Locks
  dsimp only
  cases hfound : db.caseOf receipt.apiKey (call.input settings receipt).correlationKey
      (call.input settings receipt).windowKey with
  | some found => exact .inl rfl
  | none =>
    rw [hfound] at hfresh
    refine .inr ⟨rfl, ?_, rfl⟩
    simpa using hfresh

/-- The contribution does not bring sustained warnings to a critical case. -/
def SparesCritical (db : Database) (settings : Settings) (call : Contribution) : Prop :=
  ∀ receipt id row, db.receipts.get call.receipt = some receipt →
    receipt.caseContributedAt = none →
    db.caseOf receipt.apiKey (call.input settings receipt).correlationKey
      (call.input settings receipt).windowKey = some (id, row) →
    row.urgency = .critical → (call.input settings receipt).urgency = .warning →
    row.occurrenceCount + (call.input settings receipt).occurrences < 1000

theorem contribute_moves {settings : Settings} {call : Contribution} {calls : List Call}
    (hspares : db.SparesCritical settings call)
    (hnext : db.contribute settings call = some (next, calls)) (id : Nat) :
    Record.Move (db.record id) (next.record id) := by
  rcases contribute_cases hnext with ⟨rfl, _⟩ | ⟨receipt, written, before, events, isDistinct,
    transition, hreceipt, hcontributed, hlocks, hcases, hevents, htransitions, hfrom, _⟩
  · exact .same _
  have hprojections : next.projections id = db.projections id := by
    rw [projections, hevents, projections]
  have hcorroborations : next.corroborations id = db.corroborations id := by
    rw [corroborations_append htransitions, if_neg (by simp [hfrom]), Nat.add_zero]
  by_cases hid : id = written
  · subst hid
    rw [record, record, hprojections, hcorroborations, hcases, Table.get_put, if_pos rfl,
      Option.map_some]
    rcases hlocks with hfound | ⟨_, habsent, hnew⟩
    · rw [caseOf_get hfound, Option.map_some]
      refine .climbed (db.contributedRow_climbs settings _ id before events isDistinct ?_)
      intro hcritical hwarning
      exact hspares receipt id before hreceipt hcontributed hfound hcritical hwarning
    · subst hnew
      have hclimbs := db.contributedRow_climbs settings (call.input settings receipt) id
        (newCase receipt (call.input settings receipt)) events isDistinct fun hcritical hwarning =>
          nomatch hcritical.symm.trans hwarning
      generalize db.contributedRow settings (call.input settings receipt) events isDistinct id
        (newCase receipt (call.input settings receipt)) = row at hclimbs ⊢
      have hblank : row.projectedUrgency = none := hclimbs.projected
      rw [habsent, Option.map_none, CaseRow.standing, hblank]
      exact .opened _ _
  · rw [record_eq ?_ hprojections hcorroborations]
    · exact .same _
    · rw [hcases, Table.get_put, if_neg hid]

/-! ### The other transactions -/

theorem corroborate_cases {settings : Settings} {calls : List Call}
    (hnext : db.corroborate settings id = (next, calls)) :
    next = db ∨ ∃ row neighbors transition,
      db.cases.get id = some row ∧ row.mayCorroborate = true ∧
      next.cases = db.cases.put id (row.corroborated neighbors) ∧
      next.events = db.events ∧ next.transitions = db.transitions ++ [transition] ∧
      transition.case = id ∧ transition.kind = .promoted ∧ transition.receipt = none ∧
      next.receipts = db.receipts := by
  unfold corroborate at hnext
  split at hnext
  · cases hnext
    exact .inl rfl
  next row hrow =>
  dsimp only at hnext
  split at hnext
  next hmay =>
    cases hnext
    rw [Bool.and_eq_true] at hmay
    exact .inr ⟨row, _, _, hrow, hmay.1, rfl, rfl, rfl, rfl, rfl, rfl, rfl⟩
  · cases hnext
    exact .inl rfl

theorem corroborate_moves {settings : Settings} {calls : List Call}
    (hnext : db.corroborate settings id = (next, calls)) (other : Nat) :
    Record.Move (db.record other) (next.record other) := by
  rcases corroborate_cases hnext with rfl | ⟨row, neighbors, transition, hrow, hmay, hcases, hevents,
    htransitions, hcase, hkind, hfrom, _⟩
  · exact .same _
  have hprojections : next.projections other = db.projections other := by
    rw [projections, hevents, projections]
  by_cases hother : other = id
  · subst hother
    have hreason : row.urgencyReason ≠ .corroboratedCompromise := by
      simp only [CaseRow.mayCorroborate, Bool.and_eq_true, decide_eq_true_iff] at hmay
      exact hmay.1.1.1.2
    rw [record, record, hprojections, corroborations_append htransitions,
      if_pos ⟨hcase, hkind, hfrom⟩, hcases, Table.get_put, if_pos rfl, hrow]
    exact .corroborated hreason
  · rw [record_eq ?_ hprojections]
    · exact .same _
    · rw [corroborations_append htransitions, if_neg fun heq => hother (heq.1.symm.trans hcase),
        Nat.add_zero]
    · rw [hcases, Table.get_put, if_neg hother]

theorem projectCase_cases {settings : Settings} {publication : Publication} {row : CaseRow}
    {event : ProjectedEvent} (hnext : db.projectCase settings id publication = some (next, row, event)) :
    ∃ before, db.cases.get id = some before ∧ row = before.projected ∧
      event = db.promotionEvent id before publication ∧
      projectedRank before.projectedUrgency < before.urgency.rank ∧
      next.cases = db.cases.put id before.projected ∧ next.events = db.events ++ [event] ∧
      next.receipts = db.receipts ∧
      ∃ transition, next.transitions = db.transitions ++ [transition] ∧
        transition.case = id ∧ transition.kind = .projection ∧
        transition.projectedEvent = some event.id ∧ transition.toUrgency = before.urgency := by
  obtain ⟨before, hbefore, hnext⟩ := Option.bind_eq_some_iff.mp hnext
  dsimp only at hnext
  split at hnext
  next hmay =>
    cases hnext
    refine ⟨before, hbefore, rfl, rfl, ?_, rfl, rfl, rfl, _, rfl, rfl, rfl, rfl, rfl⟩
    simp only [mayProject, Bool.and_eq_true, decide_eq_true_iff] at hmay
    exact hmay.1.2
  · cases hnext

theorem projectCase_moves {settings : Settings} {publication : Publication} {row : CaseRow}
    {event : ProjectedEvent} (hnext : db.projectCase settings id publication = some (next, row, event))
    (other : Nat) : Record.Move (db.record other) (next.record other) := by
  obtain ⟨before, hbefore, _, hevent, hrank, hcases, hevents, _, transition, htransitions, _, hkind,
    _⟩ := projectCase_cases hnext
  have hcorroborations : next.corroborations other = db.corroborations other := by
    rw [corroborations_append htransitions, if_neg (by simp [hkind]), Nat.add_zero]
  have hcase : event.case = id := by rw [hevent]; rfl
  by_cases hother : other = id
  · subst hother
    rw [record, record, hcorroborations, projections_append hevents, if_pos hcase, hcases,
      Table.get_put, if_pos rfl, hbefore, hevent]
    exact .projected hrank
  · rw [record_eq ?_ ?_ hcorroborations]
    · exact .same _
    · rw [hcases, Table.get_put, if_neg hother]
    · rw [projections_append hevents, hcase, if_neg (Ne.symm hother), List.append_nil]

theorem standing_joinCampaign (campaign : Nat) (members : List Nat) (cases : Table Nat CaseRow)
    (id : Nat) : ((joinCampaign cases campaign members).get id).map CaseRow.standing =
      (cases.get id).map CaseRow.standing := by
  induction members generalizing cases with
  | nil => rfl
  | cons member rest ih =>
    rw [joinCampaign, List.foldl_cons, ← joinCampaign, ih, Table.get_modify]
    split
    · rw [Option.map_map]
      rfl
    · rfl

theorem refreshCampaign_moves {stats : CampaignStats} {members : List (Nat × CaseRow)}
    {created : Bool} {before : CaseRow}
    (hnext : db.refreshCampaign stats members created id before = next)
    (hbefore : db.cases.get id = some before ∨
      (db.cases.get id = none ∧ before.projectedUrgency = none)) (other : Nat) :
    Record.Move (db.record other) (next.record other) := by
  subst hnext
  have hcorroborations :
      (db.refreshCampaign stats members created id before).corroborations other =
        db.corroborations other := by
    unfold refreshCampaign
    dsimp only
    split
    · rw [corroborations, List.countP_append, List.countP_singleton, corroborations, if_neg,
        Nat.add_zero]
      cases created <;> simp
    · rw [List.append_nil]
      rfl
  by_cases hother : other = id
  · subst hother
    rw [record, record, hcorroborations]
    unfold refreshCampaign
    dsimp only
    rw [standing_joinCampaign, Table.get_put, if_pos rfl]
    rcases hbefore with hbefore | ⟨habsent, hblank⟩
    · rw [hbefore]
      exact .same _
    · rw [habsent, Option.map_none, Option.map_some]
      change Record.Move _ ⟨some ⟨before.urgency, before.urgencyReason, before.projectedUrgency⟩,
        _, _⟩
      rw [hblank]
      exact .opened _ _
  · have hsame : (db.refreshCampaign stats members created id before).record other =
        db.record other := by
      refine record_eq ?_ rfl hcorroborations
      unfold refreshCampaign
      dsimp only
      rw [standing_joinCampaign, Table.get_put, if_neg hother]
    rw [hsame]
    exact .same _

theorem campaignSweep_cases {settings : Settings} {now : Time} {seen : Database}
    {key : CampaignKey} {fresh : Nat}
    (hnext : db.campaignSweep settings now seen key fresh = some next) :
    next = db ∨ ∃ stats members created id before,
      db.refreshCampaign stats members created id before = next ∧
      before.sensorKind = .campaign ∧ (db.cases.get id = some before ∨ (db.cases.get id = none ∧
        before.projectedUrgency = none ∧ before.projectionDispatchedAt = none)) := by
  unfold campaignSweep at hnext
  dsimp only at hnext
  split at hnext
  · exact .inl (Option.some.inj hnext).symm
  split at hnext
  · exact .inl (Option.some.inj hnext).symm
  split at hnext
  next id row hfound =>
    obtain ⟨hmem, hkey⟩ := List.mem_filter.mp (List.mem_of_mem_head? hfound)
    simp only [Bool.and_eq_true, decide_eq_true_iff] at hkey
    exact .inr ⟨_, _, _, id, row, Option.some.inj hnext, hkey.1.1, .inl (Table.mem_rows.mp hmem)⟩
  next =>
    split at hnext
    · cases hnext
    next hfresh =>
      rw [Option.not_isSome_iff_eq_none] at hfresh
      exact .inr ⟨_, _, _, fresh, _, Option.some.inj hnext, rfl, .inr ⟨hfresh, rfl, rfl⟩⟩

theorem campaignSweep_moves {settings : Settings} {now : Time} {seen : Database}
    {key : CampaignKey} {fresh : Nat}
    (hnext : db.campaignSweep settings now seen key fresh = some next) (other : Nat) :
    Record.Move (db.record other) (next.record other) := by
  rcases campaignSweep_cases hnext with rfl | ⟨stats, members, created, id, before, hrefresh,
    _, hbefore⟩
  · exact .same _
  · exact refreshCampaign_moves hrefresh (hbefore.imp_right fun hnew => ⟨hnew.1, hnew.2.1⟩) other

theorem settle_cases {settings : Settings} {now : Time}
    (hnext : db.settle settings now id = next) :
    next = db ∨ ∃ row transition, db.cases.get id = some row ∧
      next.cases = db.cases.put id (row.settled now) ∧ next.events = db.events ∧
      next.transitions = db.transitions ++ [transition] ∧ transition.kind = .settled ∧
      next.receipts = db.receipts := by
  unfold settle at hnext
  split at hnext
  · exact .inl hnext.symm
  next row hrow =>
  split at hnext
  · subst hnext
    exact .inr ⟨row, _, hrow, rfl, rfl, rfl, rfl, rfl⟩
  · exact .inl hnext.symm

theorem settle_moves {settings : Settings} {now : Time}
    (hnext : db.settle settings now id = next) (other : Nat) :
    Record.Move (db.record other) (next.record other) := by
  rcases settle_cases hnext with rfl | ⟨row, transition, hrow, hcases, hevents, htransitions, hkind,
    _⟩
  · exact .same _
  have hsame : next.record other = db.record other := by
    refine record_eq ?_ ?_ ?_
    · rw [hcases, Table.get_put]
      split
      next heq =>
        rw [heq, hrow]
        rfl
      · rfl
    · rw [projections, hevents, projections]
    · rw [corroborations_append htransitions, if_neg (by simp [hkind]), Nat.add_zero]
  rw [hsame]
  exact .same _

theorem confirmDispatch_moves (now : Time) (id other : Nat) :
    Record.Move (db.record other) ((db.confirmDispatch now id).record other) := by
  have hsame : (db.confirmDispatch now id).record other = db.record other := by
    refine record_eq ?_ rfl rfl
    rw [confirmDispatch, Table.get_modify]
    split
    · rw [Option.map_map]
      rfl
    · rfl
  rw [hsame]
  exact .same _

theorem contribute_falls {settings : Settings} {call : Contribution} {calls : List Call}
    (hspares : ¬ db.SparesCritical settings call)
    (hnext : db.contribute settings call = some (next, calls)) :
    ∃ id row later, db.cases.get id = some row ∧ next.cases.get id = some later ∧
      later.urgency.rank < row.urgency.rank := by
  unfold SparesCritical at hspares
  push Not at hspares
  obtain ⟨receipt, id, row, hreceipt, hcontributed, hfound, hcritical, hwarning, hcount⟩ := hspares
  rcases contribute_cases hnext with ⟨_, other, hother, hdone⟩ | ⟨other, written, before, events,
    isDistinct, transition, hother, _, hlocks, hcases, _⟩
  · cases hreceipt.symm.trans hother
    rw [hcontributed] at hdone
    cases hdone
  · cases hreceipt.symm.trans hother
    rcases hlocks with hlocked | ⟨habsent, _⟩
    · cases hfound.symm.trans hlocked
      refine ⟨id, row, _, caseOf_get hfound, by rw [hcases, Table.get_put, if_pos rfl], ?_⟩
      rw [db.contributedRow_sustained settings _ id row events isDistinct hwarning hcount
        (caseInput_warning hwarning), hcritical]
      decide
    · rw [hfound] at habsent
      cases habsent

end Database

/-! ### Runs -/

/-- A system before its first contribution, with the receipts it will ever have. -/
def System.start (receipts : Table Nat ReceiptRow) : System := ⟨⟨.empty, receipts, [], []⟩, []⟩

def UrgencyRises (system : System) (_ : Action) (next : System) : Prop :=
  ∀ id row, system.db.cases.get id = some row →
    ∃ later, next.db.cases.get id = some later ∧ row.urgency.rank ≤ later.urgency.rank

/-- No projection is above its case, the Events of a case rise strictly, so that there is one
for an urgency at most, and corroboration promotes a case once at most. -/
structure Ratcheted (system : System) : Prop where
  projected_le : ∀ id row, system.db.cases.get id = some row →
    projectedRank row.projectedUrgency ≤ row.urgency.rank
  projections_increase : ∀ id,
    (system.db.projections id).Pairwise fun first second => first.rank < second.rank
  corroborated_once : ∀ id, system.db.corroborations id ≤ 1

/-- No contribution brings sustained warnings to a critical case. -/
def SparesCritical (system : System) (action : Action) (_ : System) : Prop :=
  match action with
  | .contribute settings call => system.db.SparesCritical settings call
  | _ => True

def System.Sound (system : System) : Prop := ∀ id, (system.db.record id).Sound

variable {system next : System} {action : Action}

theorem step_moves (hspares : SparesCritical system action next)
    (hnext : step system action = some next) (id : Nat) :
    Record.Move (system.db.record id) (next.db.record id) := by
  cases action with
  | contribute settings call =>
    obtain ⟨⟨db, calls⟩, hcontribute, hresult⟩ := Option.map_eq_some_iff.mp hnext
    cases hresult
    exact Database.contribute_moves hspares hcontribute id
  | corroborate settings other =>
    simp only [step] at hnext
    split at hnext
    · cases hnext
      exact Database.corroborate_moves rfl id
    · cases hnext
  | project settings other publication =>
    simp only [step] at hnext
    split at hnext
    · cases hnext
      exact .same _
    next hproject =>
      cases hnext
      exact Database.projectCase_moves hproject id
  | confirm now other =>
    cases hnext
    exact Database.confirmDispatch_moves now other id
  | campaign settings now seen key fresh =>
    obtain ⟨db, hsweep, hresult⟩ := Option.map_eq_some_iff.mp hnext
    cases hresult
    exact Database.campaignSweep_moves hsweep id
  | settle settings now other =>
    cases hnext
    exact Database.settle_moves rfl id
  | drop call =>
    cases hnext
    exact .same _

theorem urgencyRises_of_moves
    (hmoves : ∀ id, Record.Move (system.db.record id) (next.db.record id)) :
    UrgencyRises system action next := by
  intro id row hrow
  have hstanding : (system.db.record id).standing = some row.standing := by
    rw [Database.record, hrow, Option.map_some]
  obtain ⟨standing, hlater, hrank⟩ := (hmoves id).rises row.standing hstanding
  obtain ⟨later, hget, rfl⟩ := Option.map_eq_some_iff.mp hlater
  exact ⟨later, hget, hrank⟩

theorem urgencyRises_iff_sparesCritical (hnext : step system action = some next) :
    UrgencyRises system action next ↔ SparesCritical system action next := by
  constructor
  · intro hrises
    cases action with
    | contribute settings call =>
      by_contra hspares
      obtain ⟨⟨db, calls⟩, hcontribute, hresult⟩ := Option.map_eq_some_iff.mp hnext
      cases hresult
      obtain ⟨id, row, later, hrow, hlater, hfalls⟩ :=
        Database.contribute_falls hspares hcontribute
      obtain ⟨found, hfound, hrank⟩ := hrises id row hrow
      cases hlater.symm.trans hfound
      exact hrank.not_gt hfalls
    | _ => trivial
  · intro hspares
    exact urgencyRises_of_moves (step_moves hspares hnext)

theorem System.Sound.start (receipts : Table Nat ReceiptRow) : (System.start receipts).Sound :=
  fun _ => ⟨rfl, rfl⟩

theorem System.Sound.step (hsound : system.Sound) (hspares : SparesCritical system action next)
    (hnext : step system action = some next) : next.Sound :=
  fun id => (step_moves hspares hnext id).sound (hsound id)

theorem System.Sound.ratcheted (hsound : system.Sound) : Ratcheted system := by
  refine ⟨?_, fun id => (hsound id).increase, fun id => (hsound id).once⟩
  intro id row hrow
  have hrecord : (system.db.record id).Sound := hsound id
  rw [Record.Sound, Database.record, hrow] at hrecord
  exact hrecord.projected_le

/-- Urgencies rise at every step, and everything that hangs on them is kept, exactly in the
runs that bring no sustained warnings to a critical case. -/
theorem urgency_ratchets_iff (receipts : Table Nat ReceiptRow) (actions : List Action) :
    (EachStep step UrgencyRises (System.start receipts) actions ∧
      Always step Ratcheted (System.start receipts) actions) ↔
    EachStep step SparesCritical (System.start receipts) actions := by
  have hrises : EachStep step UrgencyRises (System.start receipts) actions ↔
      EachStep step SparesCritical (System.start receipts) actions :=
    @eachStep_congr _ _ step (fun _ => True) UrgencyRises SparesCritical
      (fun _ _ _ _ hnext => ⟨trivial, urgencyRises_iff_sparesCritical hnext⟩) _ trivial actions
  refine ⟨fun hkept => hrises.mp hkept.1, fun hspares => ⟨hrises.mpr hspares, ?_⟩⟩
  have hsound : Always step System.Sound (System.start receipts) actions :=
    always_of_eachStep (fun _ _ _ hstate hcondition hnext => hstate.step hcondition hnext)
      (System.Sound.start receipts) hspares
  exact hsound.imp fun _ hstate => hstate.ratcheted

/-! ### A critical case that falls -/

def plainNaming : Naming where
  digest := fun values => String.intercalate "|" (values.map fun
    | .str text => text
    | .int value => toString value
    | _ => "")
  isoformat := toString
  isodate := fun time => toString (time / (24 * hour))
  sourceNetwork := id

def plainSettings : Settings where
  naming := plainNaming
  isAuthoritative := fun key => key = 7

def threeReceipts : Table Nat ReceiptRow :=
  ((Table.empty.put 1 ⟨7, none, "web-1", true, none, "", none⟩).put 2
    ⟨7, none, "web-1", true, none, "", none⟩).put 3 ⟨7, none, "web-1", true, none, "", none⟩

def impossiblePath : Evidence :=
  .web "wordpress" "203.0.113.0/24" "vhost:7" "/wp-login.php" "impossible_path" 1 false
    (some "203.0.113.9")

/-- A sustained probe, a change beside it that no deployment explains, the corroboration of
the probe, and one more probe. -/
def probedAgain : List Action :=
  [.contribute plainSettings ⟨1, true, 0, 1000, impossiblePath, 11, 0⟩,
    .contribute plainSettings ⟨2, true, 0, 1, .change "system_config", 12, 0⟩,
    .corroborate plainSettings 11,
    .contribute plainSettings ⟨3, true, 0, 1, impossiblePath, 13, 0⟩]

def System.urgencyOf (system : System) (id : Nat) : Option Urgency :=
  (system.db.cases.get id).map CaseRow.urgency

theorem not_always_ratchets : ¬ ∀ (receipts : Table Nat ReceiptRow) (actions : List Action),
    EachStep step UrgencyRises (System.start receipts) actions ∧
      Always step Ratcheted (System.start receipts) actions := by
  intro hall
  have hrises := (hall threeReceipts probedAgain).1
  have hchecked : EachStep step (fun system _ next =>
      system.urgencyOf 11 = some .critical → next.urgencyOf 11 ≠ some .high)
      (System.start threeReceipts) probedAgain := by
    refine hrises.imp fun system _ next hstep hcritical hhigh => ?_
    obtain ⟨row, hrow, hurgency⟩ := Option.map_eq_some_iff.mp hcritical
    obtain ⟨later, hlater, hrank⟩ := hstep 11 row hrow
    rw [System.urgencyOf, hlater, Option.map_some] at hhigh
    rw [hurgency, Option.some.inj hhigh] at hrank
    exact absurd hrank (by decide)
  revert hchecked
  decide

end DjangoMojo.Cases
