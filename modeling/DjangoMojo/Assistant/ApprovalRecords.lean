import DjangoMojo.Assistant.ApprovalSteps

/-! # What the calls know

Every row is as it was proposed, up to its state, and every call holds what it read of a row
that its user is bound to. A handler is therefore called with the stored arguments, by the bound
user, in an approval that was asked for before the row lapsed.
-/

namespace DjangoMojo.Assistant

open Foundation

variable {site : Site} {world next : World}

abbrev Proposals := Nat → Option PendingAction

def Proposals.Extends (proposed after : Proposals) : Prop :=
  ∀ pk original, proposed pk = some original → after pk = some original

def Proposals.Reads (proposed : Proposals) (request : Resolution) (pk : Nat)
    (row : PendingAction) : Prop :=
  ∃ original, proposed pk = some original ∧ original.SameProposal row ∧
    original.user = request.user

/-- An approval that was asked for by the bound user before the row lapsed. -/
def Proposals.Grants (proposed : Proposals) (claim : Claim) : Prop :=
  ∃ original, proposed claim.pk = some original ∧ original.user = claim.request.user ∧
    claim.request.decision = some .approve ∧ claim.request.madeAt ≤ claim.claimedAt ∧
    claim.claimedAt < original.expiresAt

/-- The handler ran for the bound user, in an approval made in time, on the stored
arguments. -/
def Proposals.Justifies (proposed : Proposals) (call : HandlerCall) : Prop :=
  ∃ original, proposed call.pk = some original ∧ call.request.user = original.user ∧
    call.request.decision = some .approve ∧ call.request.madeAt < original.expiresAt ∧
    call.args = original.args

def Call.Known (proposed : Proposals) (clock : Time) : Call → Prop
  | .seeking proposal | .inserting proposal => proposal.now ≤ clock
  | .superseding proposal pk _ | .capping proposal pk _ =>
    proposal.now ≤ clock ∧
      ∃ original, proposed pk = some original ∧ original.isOperation proposal = true
  | .loading request => request.madeAt ≤ clock
  | .judging request pk row => request.madeAt ≤ clock ∧ proposed.Reads request pk row
  | .gating request pk row _ now =>
    request.madeAt ≤ now ∧ request.decision = some .approve ∧ proposed.Reads request pk row
  | .claiming claim =>
    claim.request.madeAt ≤ claim.claimedAt ∧ claim.request.decision = some .approve ∧
      ∃ original, proposed claim.pk = some original ∧ original.user = claim.request.user
  | .refreshing claim | .running claim => proposed.Grants claim
  | .recording claim outcome _ =>
    proposed.Grants claim ∧ (outcome.state = .completed ∨ outcome.state = .failed)
  | .calling claim row =>
    proposed.Grants claim ∧
      ∃ original, proposed claim.pk = some original ∧ original.SameProposal row
  | _ => True

structure World.Known (world : World) : Prop where
  rows : ∀ pk row, world.rows.get pk = some row →
    ∃ original, world.proposed pk = some original ∧ original.SameProposal row
  keys : ∀ pk original, world.proposed pk = some original → pk < world.nextPk
  calls : ∀ id call, world.calls id = some call → call.Known world.proposed world.clock
  handled : ∀ call ∈ world.handled, Proposals.Justifies world.proposed call

namespace Proposals.Extends

variable {proposed after : Proposals} (hextends : proposed.Extends after)

include hextends in
theorem reads {request : Resolution} {pk : Nat} {row : PendingAction}
    (hreads : proposed.Reads request pk row) : after.Reads request pk row := by
  obtain ⟨original, horiginal, hrest⟩ := hreads
  exact ⟨original, hextends pk original horiginal, hrest⟩

include hextends in
theorem grants {claim : Claim} (hgrants : proposed.Grants claim) : after.Grants claim := by
  obtain ⟨original, horiginal, hrest⟩ := hgrants
  exact ⟨original, hextends claim.pk original horiginal, hrest⟩

include hextends in
theorem justifies {call : HandlerCall} (hcall : proposed.Justifies call) :
    after.Justifies call := by
  obtain ⟨original, horiginal, hrest⟩ := hcall
  exact ⟨original, hextends call.pk original horiginal, hrest⟩

include hextends in
theorem known {clock later : Time} (hclock : clock ≤ later) {call : Call}
    (hknown : call.Known proposed clock) : call.Known after later := by
  cases call with
  | seeking proposal => exact le_trans hknown hclock
  | inserting proposal => exact le_trans hknown hclock
  | superseding proposal pk row =>
    obtain ⟨hnow, original, horiginal, hoperation⟩ := hknown
    exact ⟨hnow.trans hclock, original, hextends pk original horiginal, hoperation⟩
  | capping proposal pk row =>
    obtain ⟨hnow, original, horiginal, hoperation⟩ := hknown
    exact ⟨hnow.trans hclock, original, hextends pk original horiginal, hoperation⟩
  | loading request => exact le_trans hknown hclock
  | judging request pk row => exact ⟨hknown.1.trans hclock, hextends.reads hknown.2⟩
  | gating request pk row entry now =>
    exact ⟨hknown.1, hknown.2.1, hextends.reads hknown.2.2⟩
  | claiming claim =>
    obtain ⟨hmade, hdecision, original, horiginal, huser⟩ := hknown
    exact ⟨hmade, hdecision, original, hextends claim.pk original horiginal, huser⟩
  | refreshing claim => exact hextends.grants hknown
  | running claim => exact hextends.grants hknown
  | recording claim outcome now => exact ⟨hextends.grants hknown.1, hknown.2⟩
  | calling claim row =>
    obtain ⟨hgrants, original, horiginal, hsame⟩ := hknown
    exact ⟨hextends.grants hgrants, original, hextends claim.pk original horiginal, hsame⟩
  | trimming proposal row doomed => trivial
  | canceling pk now => trivial
  | failing pk code now => trivial
  | rereading pk now => trivial
  | expiring sweep => trivial
  | aging sweep => trivial
  | deleting sweep => trivial
  | answered reply => trivial

end Proposals.Extends

/-! ### Single statements -/

theorem World.load_eq_some {request : Resolution} {pk : Nat} {row : PendingAction}
    (hload : world.load request = some (pk, row)) :
    world.rows.get pk = some row ∧ row.user = request.user := by
  obtain ⟨hfound, _⟩ := Option.filter_eq_some_iff.mp hload
  obtain ⟨uuid, _, hfind⟩ := Option.bind_eq_some_iff.mp hfound
  have hmatches := List.find?_some hfind
  simp only [Bool.and_eq_true, decide_eq_true_iff] at hmatches
  exact ⟨Table.mem_rows.mp (List.mem_of_find?_eq_some hfind), hmatches.2⟩

theorem World.Known.expires (hknown : world.Known) {pk : Nat} {original row : PendingAction}
    (horiginal : world.proposed pk = some original) (hrow : world.rows.get pk = some row) :
    original.SameProposal row := by
  obtain ⟨other, hother, hsame⟩ := hknown.rows pk row hrow
  rw [horiginal, Option.some.injEq] at hother
  exact hother ▸ hsame

theorem proceed_clock {id : Nat} {call : Call} {input : Input}
    (hnext : world.proceed site id call input = some next) : next.clock = world.clock := by
  revert hnext
  fun_cases World.proceed site world id call input
  all_goals
    intro hnext
    cases hnext
    try rfl

/-- A statement adds one proposal at most, under the next key. -/
theorem proceed_proposed {id : Nat} {call : Call} {input : Input}
    (hnext : world.proceed site id call input = some next) :
    (next.proposed = world.proposed ∧ next.nextPk = world.nextPk) ∨
      ∃ row, next.proposed = Function.update world.proposed world.nextPk (some row) ∧
        next.nextPk = world.nextPk + 1 := by
  revert hnext
  fun_cases World.proceed site world id call input
  case case4 proposal uuid _ row =>
    intro hnext
    cases hnext
    exact .inr ⟨row, rfl, rfl⟩
  all_goals
    intro hnext
    cases hnext
    try exact .inl ⟨rfl, rfl⟩

/-- A handler is called in one statement, and there with the arguments of the row. -/
theorem proceed_handled {id : Nat} {call : Call} {input : Input}
    (hnext : world.proceed site id call input = some next) :
    next.handled = world.handled ∨
      ∃ claim row, call = .calling claim row ∧ next.calls = Function.update world.calls id
          (some (.running claim)) ∧
        next.handled = world.handled ++ [⟨claim.request, claim.pk, row.args⟩] := by
  revert hnext
  fun_cases World.proceed site world id call input
  case case22 claim row _ =>
    intro hnext
    cases hnext
    exact .inr ⟨claim, row, rfl, rfl, rfl⟩
  all_goals
    intro hnext
    cases hnext
    try exact .inl rfl

namespace World.Known

theorem extends_of_proposed (hknown : world.Known)
    (hproposed : (next.proposed = world.proposed ∧ next.nextPk = world.nextPk) ∨
      ∃ row, next.proposed = Function.update world.proposed world.nextPk (some row) ∧
        next.nextPk = world.nextPk + 1) :
    Proposals.Extends world.proposed next.proposed ∧
      ∀ pk original, next.proposed pk = some original → pk < next.nextPk := by
  rcases hproposed with ⟨hproposed, hpk⟩ | ⟨row, hproposed, hpk⟩
  · rw [hproposed, hpk]
    exact ⟨fun _ _ horiginal => horiginal, hknown.keys⟩
  rw [hproposed, hpk]
  constructor
  · intro pk original horiginal
    have hlt := hknown.keys pk original horiginal
    rw [Function.update_of_ne (by omega)]
    exact horiginal
  · intro pk original horiginal
    by_cases heq : pk = world.nextPk
    · omega
    · rw [Function.update_of_ne heq] at horiginal
      have hlt := hknown.keys pk original horiginal
      omega

theorem proceed_call (hknown : world.Known) {id : Nat} {call : Call} {input : Input}
    (hcall : world.calls id = some call)
    (hnext : world.proceed site id call input = some next) :
    ∃ after, next.calls = Function.update world.calls id (some after) ∧
      after.Known next.proposed next.clock := by
  have hown := hknown.calls id call hcall
  revert hown hnext
  fun_cases World.proceed site world id call input
  -- a new row is about the operation that was proposed
  case case4 proposal uuid _ row =>
    intro hnext hown
    cases hnext
    refine ⟨_, rfl, hown, row, Function.update_self .., ?_⟩
    exact PendingAction.isOperation_iff.mpr ⟨rfl, rfl, rfl⟩
  case case8 request pk row hload =>
    intro hnext hown
    cases hnext
    obtain ⟨hrow, huser⟩ := World.load_eq_some hload
    obtain ⟨original, horiginal, hsame⟩ := hknown.rows pk row hrow
    exact ⟨_, rfl, hown, original, horiginal, hsame, hsame.user.symm.trans huser⟩
  case case11 request pk row found entry hdecision hjudge =>
    intro hnext hown
    cases hnext
    exact ⟨_, rfl, hown.1, hdecision, hown.2⟩
  case case15 request pk row entry now gates _ =>
    intro hnext hown
    cases hnext
    obtain ⟨hmade, hdecision, original, horiginal, _, huser⟩ := hown
    exact ⟨_, rfl, hmade, hdecision, original, horiginal, huser⟩
  -- the claim finds the row before its expiry
  case case18 claim hopen =>
    intro hnext hown
    cases hnext
    obtain ⟨hmade, hdecision, original, horiginal, huser⟩ := hown
    obtain ⟨row, hrow, hopen⟩ := (Option.any_eq_true _ _).mp hopen
    have hsame := hknown.expires horiginal hrow
    refine ⟨_, rfl, original, horiginal, huser, hdecision, hmade, ?_⟩
    rw [← hsame.expiresAt]
    exact (PendingAction.isOpen_iff.mp hopen).2
  case case20 claim row hrow =>
    intro hnext hown
    cases hnext
    exact ⟨_, rfl, hown, hknown.rows claim.pk row hrow⟩
  case case22 claim row _ =>
    intro hnext hown
    cases hnext
    exact ⟨_, rfl, hown.1⟩
  case case23 claim result =>
    intro hnext hown
    cases hnext
    exact ⟨_, rfl, hown, site.dispatched_state result⟩
  all_goals
    intro hnext hown
    cases hnext
    try first
      | exact ⟨_, rfl, trivial⟩
      | exact ⟨_, rfl, hown⟩

theorem proceed_justified (hknown : world.Known) {id : Nat} {call : Call} {input : Input}
    (hcall : world.calls id = some call)
    (hnext : world.proceed site id call input = some next)
    (hextends : Proposals.Extends world.proposed next.proposed) :
    ∀ call ∈ next.handled, Proposals.Justifies next.proposed call := by
  intro ran hran
  rcases proceed_handled hnext with hsame | ⟨claim, row, rfl, _, happend⟩
  · rw [hsame] at hran
    exact hextends.justifies (hknown.handled ran hran)
  · rw [happend, List.mem_append, List.mem_singleton] at hran
    rcases hran with hran | rfl
    · exact hextends.justifies (hknown.handled ran hran)
    obtain ⟨hgrants, other, hother, hsame⟩ := hknown.calls id _ hcall
    obtain ⟨original, horiginal, huser, hdecision, hmade, hexpires⟩ := hgrants
    rw [horiginal, Option.some.injEq] at hother
    subst hother
    exact ⟨original, hextends _ _ horiginal, huser.symm, hdecision, hmade.trans_lt hexpires,
      hsame.args⟩

theorem get_nextPk (hknown : world.Known) : world.rows.get world.nextPk = none := by
  cases hrow : world.rows.get world.nextPk with
  | none => rfl
  | some row =>
    obtain ⟨original, horiginal, _⟩ := hknown.rows _ row hrow
    exact absurd (hknown.keys _ original horiginal) (lt_irrefl _)

theorem proposed_of_created (hknown : world.Known) {id uuid : Nat} {proposal : Proposal}
    (hcall : world.calls id = some (.inserting proposal))
    (hnext : step site world (.proceed id (.uuid uuid)) = some next) :
    next.rows.get world.nextPk = next.proposed world.nextPk := by
  simp only [step, hcall, Option.bind_some, World.proceed] at hnext
  split at hnext
  · cases hnext
  cases hnext
  change (world.rows.insert world.nextPk _).get _ = Function.update world.proposed _ _ _
  rw [Table.get_insert, if_pos rfl, hknown.get_nextPk, Function.update_self]
  rfl

theorem rows_of_step (hknown : world.Known) {label : Label}
    (hnext : step site world label = some next)
    (hextends : Proposals.Extends world.proposed next.proposed) :
    ∀ pk row, next.rows.get pk = some row →
      ∃ original, next.proposed pk = some original ∧ original.SameProposal row := by
  intro pk row hrow
  have hkept {old : PendingAction} (hold : world.rows.get pk = some old)
      (hsame : old.SameProposal row) :
      ∃ original, next.proposed pk = some original ∧ original.SameProposal row := by
    obtain ⟨original, horiginal, hfirst⟩ := hknown.rows pk old hold
    exact ⟨original, hextends pk original horiginal, hfirst.trans hsame⟩
  have hstep := step_row hnext pk
  rw [hrow] at hstep
  generalize hold : world.rows.get pk = before at hstep
  cases hstep with
  | kept => exact hkept hold (.refl row)
  | created id uuid proposal _ hpk hcall hlabel _ =>
    subst hpk hlabel
    exact ⟨row, (hknown.proposed_of_created hcall hnext).symm.trans hrow, .refl row⟩
  | left old _ _ hafter => exact hkept hold hafter.1
  | claimed old id claim => exact hkept hold ⟨rfl, rfl, rfl, rfl, rfl, rfl⟩
  | aged old _ id sweep _ _ _ _ hsame _ => exact hkept hold hsame
  | recorded old _ id claim outcome now _ _ _ hsame _ => exact hkept hold hsame

theorem begin (hknown : world.Known) (id : Nat) {call : Call}
    (hfirst : call.IsFirst world.clock) : (world.put id call).Known where
  rows := hknown.rows
  keys := hknown.keys
  handled := hknown.handled
  calls := by
    intro other found hfound
    by_cases heq : other = id
    · rw [heq, World.put_self, Option.some.injEq] at hfound
      subst hfound
      cases call with
      | seeking proposal => exact hfirst.le
      | loading request => exact hfirst.le
      | expiring sweep => trivial
      | answered reply => trivial
      | _ => exact hfirst.elim
    · rw [World.put_of_ne _ heq] at hfound
      exact hknown.calls other found hfound

end World.Known

theorem step_known {label : Label} (hknown : world.Known)
    (hnext : step site world label = some next) : next.Known := by
  rcases step_cases hnext with ⟨elapsed, rfl⟩ | ⟨id, call, hfirst, _, rfl⟩ |
    ⟨id, input, call, rfl, hcall, hproceed⟩
  · refine ⟨hknown.rows, hknown.keys, fun id call hcall => ?_, hknown.handled⟩
    have hextends : Proposals.Extends world.proposed world.proposed :=
      fun _ _ horiginal => horiginal
    exact hextends.known (Int.le_add_of_nonneg_right (Int.natCast_nonneg elapsed))
      (hknown.calls id call hcall)
  · exact hknown.begin id hfirst
  · obtain ⟨hextends, hkeys⟩ := hknown.extends_of_proposed (proceed_proposed hproceed)
    obtain ⟨after, hcalls, hafter⟩ := hknown.proceed_call hcall hproceed
    refine ⟨hknown.rows_of_step hnext hextends, hkeys, fun other found hfound => ?_,
      hknown.proceed_justified hcall hproceed hextends⟩
    rw [hcalls] at hfound
    by_cases heq : other = id
    · rw [heq, Function.update_self, Option.some.injEq] at hfound
      exact hfound ▸ hafter
    · rw [Function.update_of_ne heq] at hfound
      exact hextends.known (proceed_clock hproceed).ge (hknown.calls other found hfound)

theorem known_start (clock : Time) (nextPk : Nat) : (World.start clock nextPk).Known where
  rows := fun _ _ hrow => nomatch hrow
  keys := fun _ _ horiginal => nomatch horiginal
  calls := fun _ _ hcall => nomatch hcall
  handled := fun _ hcall => absurd hcall List.not_mem_nil

end DjangoMojo.Assistant
