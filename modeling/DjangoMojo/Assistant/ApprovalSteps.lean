import DjangoMojo.Assistant.Approvals

/-! # What one step does

A step changes at most one call. Seen from one row, it leaves the row alone, creates it, or is
one of six statements; which of them, the row's state decides.
-/

namespace DjangoMojo.Assistant

open Foundation

variable {site : Site} {world next : World}

namespace PendingAction.SameProposal

variable {first second third : PendingAction}

theorem refl (row : PendingAction) : row.SameProposal row := ⟨rfl, rfl, rfl, rfl, rfl, rfl⟩

theorem trans (hfirst : first.SameProposal second) (hsecond : second.SameProposal third) :
    first.SameProposal third where
  user := hsecond.user.trans hfirst.user
  conversation := hsecond.conversation.trans hfirst.conversation
  toolName := hsecond.toolName.trans hfirst.toolName
  args := hsecond.args.trans hfirst.args
  argsFingerprint := hsecond.argsFingerprint.trans hfirst.argsFingerprint
  expiresAt := hsecond.expiresAt.trans hfirst.expiresAt

end PendingAction.SameProposal

namespace PendingAction

variable {row : PendingAction} {now : Time}

theorem isOpen_iff : row.isOpen now = true ↔ row.state = .pending ∧ now < row.expiresAt := by
  rw [isOpen, Bool.and_eq_true, decide_eq_true_iff, decide_eq_true_iff]

theorem isOperation_iff {proposal : Proposal} :
    row.isOperation proposal = true ↔ row.conversation = proposal.request.conversation ∧
      row.toolName = proposal.request.toolName ∧
      row.argsFingerprint = proposal.argsFingerprint := by
  rw [isOperation, Bool.and_eq_true, Bool.and_eq_true, decide_eq_true_iff, decide_eq_true_iff,
    decide_eq_true_iff, and_assoc]

/-- A row that leaves `pending` without being claimed. -/
def LeftOpen (row after : PendingAction) : Prop :=
  row.SameProposal after ∧ after.state ∈ [.canceled, .expired, .superseded, .failed]

end PendingAction

inductive RowStep (world : World) (label : Label) (pk : Nat) :
    Option PendingAction → Option PendingAction → Prop
  | kept (row : Option PendingAction) : RowStep world label pk row row
  | created (id uuid : Nat) (proposal : Proposal) (row : PendingAction) (hpk : pk = world.nextPk)
      (hcall : world.calls id = some (.inserting proposal))
      (hlabel : label = .proceed id (.uuid uuid)) (hpending : row.state = .pending) :
      RowStep world label pk none (some row)
  | left (row after : PendingAction) (hpending : row.state = .pending)
      (hafter : row.LeftOpen after) : RowStep world label pk (some row) (some after)
  | claimed (row : PendingAction) (id : Nat) (claim : Claim)
      (hcall : world.calls id = some (.claiming claim)) (hlabel : label = .proceed id .none)
      (hpk : pk = claim.pk) (hopen : row.isOpen claim.claimedAt = true) :
      RowStep world label pk (some row)
        (some { row with state := .executing, modified := claim.claimedAt })
  | aged (row after : PendingAction) (id : Nat) (sweep : SweepRun)
      (hcall : world.calls id = some (.aging sweep)) (hlabel : label = .proceed id .none)
      (hexecuting : row.state = .executing)
      (hstale : row.modified < sweep.now - executingTimeout)
      (hsame : row.SameProposal after) (hfailed : after.state = .failed) :
      RowStep world label pk (some row) (some after)
  | recorded (row after : PendingAction) (id : Nat) (claim : Claim) (outcome : Outcome)
      (now : Time) (hcall : world.calls id = some (.recording claim outcome now))
      (hlabel : label = .proceed id .none) (hpk : pk = claim.pk) (hsame : row.SameProposal after)
      (hstate : after.state = outcome.state) : RowStep world label pk (some row) (some after)
  | deleted (row : PendingAction) (hterminal : row.state.isTerminal = true) :
      RowStep world label pk (some row) none

/-- An update shows on one row as its condition decides. -/
theorem RowStep.of_update {label : Label} {pk : Nat} {condition : Nat → PendingAction → Bool}
    {change : PendingAction → PendingAction}
    (hchange : ∀ row, condition pk row = true →
      RowStep world label pk (some row) (some (change row))) :
    RowStep world label pk (world.rows.get pk)
      ((world.rows.updateWhere condition change).get pk) := by
  cases hrow : world.rows.get pk with
  | none =>
    rw [Table.get_updateWhere, hrow]
    exact .kept none
  | some row =>
    cases hcondition : condition pk row with
    | true =>
      rw [Table.get_updateWhere_of_meets hrow hcondition]
      exact hchange row hcondition
    | false =>
      rw [Table.get_updateWhere_of_not hrow hcondition]
      exact .kept (some row)

theorem PendingAction.leftOpen_moved (row : PendingAction) (now : Time) {state : ActionState}
    (hstate : state ∈ [.canceled, .expired, .superseded, .failed]) :
    row.LeftOpen (row.moved state now) := ⟨⟨rfl, rfl, rfl, rfl, rfl, rfl⟩, hstate⟩

theorem proceed_row {id : Nat} {call : Call} {input : Input}
    (hcall : world.calls id = some call)
    (hnext : world.proceed site id call input = some next) (pk : Nat) :
    RowStep world (.proceed id input) pk (world.rows.get pk) (next.rows.get pk) := by
  revert hnext
  fun_cases World.proceed site world id call input
  -- the creation of a row
  case case4 proposal uuid _ row =>
    intro hnext
    cases hnext
    change RowStep world _ pk _ ((world.rows.insert world.nextPk row).get pk)
    rw [Table.get_insert]
    split
    next heq =>
      rw [heq]
      cases hold : world.rows.get world.nextPk with
      | none => exact .created id uuid proposal row rfl hcall rfl rfl
      | some old => exact .kept _
    · exact .kept _
  -- the older rows of the same operation
  case case5 proposal key row =>
    intro hnext
    cases hnext
    refine .of_update fun row hcondition => ?_
    simp only [Bool.and_eq_true, decide_eq_true_iff] at hcondition
    exact .left row _ hcondition.1.2 (row.leftOpen_moved _ (by decide))
  -- the rows beyond the cap
  case case7 proposal row doomed =>
    intro hnext
    cases hnext
    refine .of_update fun row hcondition => ?_
    simp only [Bool.and_eq_true, decide_eq_true_iff] at hcondition
    exact .left row _ hcondition.2 (row.leftOpen_moved _ (by decide))
  -- a cancellation
  case case16 key now =>
    intro hnext
    cases hnext
    refine .of_update fun row hcondition => ?_
    simp only [Bool.and_eq_true, PendingAction.isOpen_iff] at hcondition
    exact .left row _ hcondition.2.1 (row.leftOpen_moved _ (by decide))
  -- an approver who lost a permission
  case case17 key code now =>
    intro hnext
    cases hnext
    refine .of_update fun row hcondition => ?_
    simp only [Bool.and_eq_true, decide_eq_true_iff] at hcondition
    exact .left row _ hcondition.2 ⟨⟨rfl, rfl, rfl, rfl, rfl, rfl⟩, by simp [PendingAction.moved]⟩
  -- the atomic claim
  case case18 claim _ =>
    intro hnext
    cases hnext
    refine .of_update fun row hcondition => ?_
    simp only [Bool.and_eq_true, decide_eq_true_iff] at hcondition
    exact .claimed row id claim hcall rfl hcondition.1 hcondition.2
  -- the outcome, which asks for no state
  case case24 claim outcome now =>
    intro hnext
    cases hnext
    refine .of_update fun row hcondition => ?_
    exact .recorded row _ id claim outcome now hcall rfl (decide_eq_true_iff.mp hcondition)
      ⟨rfl, rfl, rfl, rfl, rfl, rfl⟩ rfl
  -- the three statements of a sweep
  case case27 sweep condition =>
    intro hnext
    cases hnext
    refine .of_update fun row hcondition => ?_
    simp only [condition, Bool.and_eq_true, decide_eq_true_iff] at hcondition
    exact .left row _ hcondition.1 (row.leftOpen_moved _ (by decide))
  case case28 sweep condition =>
    intro hnext
    cases hnext
    refine .of_update fun row hcondition => ?_
    simp only [condition, Bool.and_eq_true, decide_eq_true_iff] at hcondition
    exact .aged row _ id sweep hcall rfl hcondition.1 hcondition.2 ⟨rfl, rfl, rfl, rfl, rfl, rfl⟩
      rfl
  case case29 sweep cutoff condition =>
    intro hnext
    cases hnext
    change RowStep world _ pk _ ((world.rows.deleteWhere condition).get pk)
    rw [Table.get_deleteWhere]
    cases hrow : world.rows.get pk with
    | none => exact .kept none
    | some row =>
      rw [Option.filter_some]
      split
      · exact .kept (some row)
      next hmeets =>
        simp only [condition, Bool.not_eq_true', Bool.not_eq_false, Bool.and_eq_true] at hmeets
        exact .deleted row hmeets.1
  all_goals
    intro hnext
    cases hnext
    try exact .kept _

def Call.IsFirst (clock : Time) : Call → Prop
  | .seeking proposal => proposal.now = clock
  | .loading request => request.madeAt = clock
  | .expiring _ | .answered _ => True
  | _ => False

theorem ProposeRequest.prepare_now {request : ProposeRequest} {now : Time} {proposal : Proposal}
    (hprepare : request.prepare site now = .ok proposal) : proposal.now = now := by
  simp only [prepare, bind_ok, pure_ok] at hprepare
  obtain ⟨_, _, args, _, preview, _, rfl⟩ := hprepare
  rfl

/-- Time passes, a call begins, or a call executes its next statement. -/
theorem step_cases {label : Label} (hnext : step site world label = some next) :
    (∃ elapsed : Nat, next = { world with clock := world.clock + elapsed }) ∨
      (∃ id call, call.IsFirst world.clock ∧ world.calls id = none ∧ next = world.put id call) ∨
      ∃ id input call, label = .proceed id input ∧ world.calls id = some call ∧
        world.proceed site id call input = some next := by
  cases label with
  | tick elapsed =>
    cases hnext
    exact .inl ⟨elapsed, rfl⟩
  | propose id request =>
    simp only [step] at hnext
    split at hnext
    · cases hnext
    next hidle =>
    rw [Bool.not_eq_true, Option.isSome_eq_false_iff, Option.isNone_iff_eq_none] at hidle
    split at hnext
    next proposal hprepare =>
      cases hnext
      exact .inr (.inl ⟨id, .seeking proposal, ProposeRequest.prepare_now hprepare, hidle, rfl⟩)
    next message _ =>
      cases hnext
      exact .inr (.inl ⟨id, .answered (.toolError message), trivial, hidle, rfl⟩)
  | resolve id user actionId decision conversation =>
    simp only [step] at hnext
    split at hnext
    · cases hnext
    next hidle =>
    rw [Bool.not_eq_true, Option.isSome_eq_false_iff, Option.isNone_iff_eq_none] at hidle
    split at hnext
    · cases hnext
      exact .inr (.inl ⟨id, .answered (refusal .unavailable ""), trivial, hidle, rfl⟩)
    · cases hnext
      exact .inr (.inl ⟨id, .loading ⟨user, actionId, decision, conversation, world.clock⟩,
        rfl, hidle, rfl⟩)
  | sweep id retentionDays =>
    simp only [step] at hnext
    split at hnext
    · cases hnext
    next hidle =>
    rw [Bool.not_eq_true, Option.isSome_eq_false_iff, Option.isNone_iff_eq_none] at hidle
    · cases hnext
      exact .inr (.inl ⟨id, .expiring ⟨world.clock, retentionDays, ⟨0, 0, 0⟩⟩, trivial, hidle,
        rfl⟩)
  | proceed id input =>
    obtain ⟨call, hcall, hproceed⟩ := Option.bind_eq_some_iff.mp hnext
    exact .inr (.inr ⟨id, input, call, rfl, hcall, hproceed⟩)

theorem step_row {label : Label} (hnext : step site world label = some next) (pk : Nat) :
    RowStep world label pk (world.rows.get pk) (next.rows.get pk) := by
  rcases step_cases hnext with ⟨elapsed, rfl⟩ | ⟨id, call, _, _, rfl⟩ |
    ⟨id, input, call, rfl, hcall, hproceed⟩
  · exact .kept _
  · exact .kept _
  · exact proceed_row hcall hproceed pk

/-- No interleaving changes a row otherwise than by one of these transitions. -/
theorem rowSteps (site : Site) (world : World) (labels : List Label) :
    EachStep (step site) (fun world label next =>
      ∀ pk, RowStep world label pk (world.rows.get pk) (next.rows.get pk)) world labels :=
  EachStep.of_step (fun _ _ _ => step_row) world labels

end DjangoMojo.Assistant
