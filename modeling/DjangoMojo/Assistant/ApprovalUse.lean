import DjangoMojo.Assistant.ApprovalRecords

/-! # A row is used once

The atomic claim hands a row to one call, which keeps it until it has recorded an outcome. As
long as no sweep gives up on a claim whose handler still runs, the row stays `executing` until
then, and the outcome is the last thing that is written to it.
-/

namespace DjangoMojo.Assistant

open Foundation

variable {site : Site} {world next : World}

namespace Call

/-- The claim that a call holds, from the claiming statement to the recorded outcome. -/
def claim? : Call → Option Claim
  | .refreshing claim | .calling claim _ | .running claim | .recording claim _ _ => some claim
  | _ => none

/-- A call that holds a claim, and has not called the handler yet. -/
def isEarly : Call → Bool
  | .refreshing _ | .calling _ _ => true
  | _ => false

end Call

/-- What a step makes of a call, as far as claims and handlers go. -/
inductive Advance (world next : World) (before : Option Call) : Call → Prop
  | dropped (after : Call) (hafter : after.claim? = none)
      (hhandled : next.handled = world.handled) : Advance world next before after
  | kept (call after : Call) (claim : Claim) (hcall : before = some call)
      (hbefore : call.claim? = some claim) (hafter : after.claim? = some claim)
      (hearly : after.isEarly = call.isEarly) (hhandled : next.handled = world.handled) :
      Advance world next before after
  | took (claim : Claim) (row : PendingAction) (hcall : before = some (.claiming claim))
      (hrow : world.rows.get claim.pk = some row) (hopen : row.isOpen claim.claimedAt = true)
      (htaken : next.rows.get claim.pk =
        some { row with state := .executing, modified := claim.claimedAt })
      (hhandled : next.handled = world.handled) : Advance world next before (.refreshing claim)
  | ran (claim : Claim) (row : PendingAction) (hcall : before = some (.calling claim row))
      (hhandled : next.handled = world.handled ++ [⟨claim.request, claim.pk, row.args⟩]) :
      Advance world next before (.running claim)

theorem proceed_advance {id : Nat} {call : Call} {input : Input}
    (hnext : world.proceed site id call input = some next) :
    ∃ after, next.calls = Function.update world.calls id (some after) ∧
      Advance world next (some call) after := by
  revert hnext
  fun_cases World.proceed site world id call input
  -- the claim found the row open
  case case18 claim hopen =>
    intro hnext
    cases hnext
    obtain ⟨row, hrow, hopen⟩ := (Option.any_eq_true _ _).mp hopen
    refine ⟨_, rfl, .took claim row rfl hrow hopen ?_ rfl⟩
    exact Table.get_updateWhere_of_meets hrow (by simp [hopen])
  case case20 claim row hrow =>
    intro hnext
    cases hnext
    exact ⟨_, rfl, .kept _ _ claim rfl rfl rfl rfl rfl⟩
  case case22 claim row _ =>
    intro hnext
    cases hnext
    exact ⟨_, rfl, .ran claim row rfl rfl⟩
  case case23 claim result =>
    intro hnext
    cases hnext
    exact ⟨_, rfl, .kept _ _ claim rfl rfl rfl rfl rfl⟩
  all_goals
    intro hnext
    cases hnext
    try exact ⟨_, rfl, .dropped _ rfl rfl⟩

theorem step_advance {label : Label} (hnext : step site world label = some next) :
    (next.calls = world.calls ∧ next.handled = world.handled) ∨
      ∃ id after, next.calls = Function.update world.calls id (some after) ∧
        Advance world next (world.calls id) after := by
  rcases step_cases hnext with ⟨elapsed, rfl⟩ | ⟨id, call, hfirst, _, rfl⟩ |
    ⟨id, input, call, rfl, hcall, hproceed⟩
  · exact .inl ⟨rfl, rfl⟩
  · have hclaim : call.claim? = none := by
      cases call with
      | refreshing claim => exact hfirst.elim
      | calling claim row => exact hfirst.elim
      | running claim => exact hfirst.elim
      | recording claim outcome now => exact hfirst.elim
      | _ => rfl
    exact .inr ⟨id, call, rfl, .dropped _ hclaim rfl⟩
  · obtain ⟨after, hcalls, hadvance⟩ := proceed_advance hproceed
    exact .inr ⟨id, after, hcalls, hcall ▸ hadvance⟩

/-! ### One holder, one handler -/

namespace World

def Holds (world : World) (id : Nat) (claim : Claim) : Prop :=
  ∃ call, world.calls id = some call ∧ call.claim? = some claim

def Spent (world : World) (pk : Nat) : Prop :=
  (∃ id claim, world.Holds id claim ∧ claim.pk = pk) ∨ ∃ ran ∈ world.handled, ran.pk = pk

structure SingleUse (world : World) : Prop where
  holder : ∀ id other first second, world.Holds id first → world.Holds other second →
    first.pk = second.pk → id = other
  early : ∀ id call claim, world.calls id = some call → call.claim? = some claim →
    call.isEarly = true → ∀ ran ∈ world.handled, ran.pk ≠ claim.pk
  once : (world.handled.map HandlerCall.pk).Nodup
  spent : ∀ pk row, world.Spent pk → world.rows.get pk = some row →
    row.state ∈ [.executing, .completed, .failed]

end World

theorem holds_of_step {label : Label} (hnext : step site world label = some next) {id : Nat}
    {claim : Claim} (hholds : next.Holds id claim) :
    world.Holds id claim ∨
      (world.calls id = some (.claiming claim) ∧
        (∃ row, world.rows.get claim.pk = some row ∧ row.isOpen claim.claimedAt = true ∧
          next.rows.get claim.pk =
            some { row with state := .executing, modified := claim.claimedAt })) := by
  obtain ⟨call, hcall, hclaim⟩ := hholds
  rcases step_advance hnext with ⟨hcalls, _⟩ | ⟨moved, after, hcalls, hadvance⟩
  · exact .inl ⟨call, hcalls ▸ hcall, hclaim⟩
  rw [hcalls] at hcall
  by_cases heq : id = moved
  · subst heq
    rw [Function.update_self, Option.some.injEq] at hcall
    subst hcall
    cases hadvance with
    | dropped _ hafter _ =>
      rw [hafter] at hclaim
      cases hclaim
    | kept before _ kept hbefore hkept hafter _ _ =>
      rw [hafter, Option.some.injEq] at hclaim
      exact .inl ⟨before, hbefore, hclaim ▸ hkept⟩
    | took taken row hbefore hrow hopen htaken _ =>
      cases hclaim
      exact .inr ⟨hbefore, row, hrow, hopen, htaken⟩
    | ran taken row hbefore _ =>
      cases hclaim
      exact .inl ⟨_, hbefore, rfl⟩
  · rw [Function.update_of_ne heq] at hcall
    exact .inl ⟨call, hcall, hclaim⟩

/-- A handler that has run after a step ran before it, or is called by the holder of an early
claim. -/
theorem handled_of_step {label : Label} (hnext : step site world label = some next) :
    next.handled = world.handled ∨
      ∃ id claim row, world.calls id = some (.calling claim row) ∧
        next.calls = Function.update world.calls id (some (.running claim)) ∧
        next.handled = world.handled ++ [⟨claim.request, claim.pk, row.args⟩] := by
  rcases step_advance hnext with ⟨_, hhandled⟩ | ⟨id, after, hcalls, hadvance⟩
  · exact .inl hhandled
  cases hadvance with
  | dropped _ _ hhandled => exact .inl hhandled
  | kept _ _ _ _ _ _ _ hhandled => exact .inl hhandled
  | took _ _ _ _ _ _ hhandled => exact .inl hhandled
  | ran claim row hcall hhandled => exact .inr ⟨id, claim, row, hcall, hcalls, hhandled⟩

theorem spent_of_step {label : Label} (hnext : step site world label = some next) {pk : Nat}
    (hspent : next.Spent pk) :
    world.Spent pk ∨ ∃ row after, world.rows.get pk = some row ∧ row.state = .pending ∧
      next.rows.get pk = some after ∧ after.state = .executing := by
  rcases hspent with ⟨id, claim, hholds, rfl⟩ | ⟨ran, hran, rfl⟩
  · rcases holds_of_step hnext hholds with hbefore | ⟨_, row, hrow, hopen, htaken⟩
    · exact .inl (.inl ⟨id, claim, hbefore, rfl⟩)
    · exact .inr ⟨row, _, hrow, (PendingAction.isOpen_iff.mp hopen).1, htaken, rfl⟩
  · rcases handled_of_step hnext with hsame | ⟨id, claim, row, hcall, _, happend⟩
    · exact .inl (.inr ⟨ran, hsame ▸ hran, rfl⟩)
    rw [happend, List.mem_append, List.mem_singleton] at hran
    rcases hran with hran | rfl
    · exact .inl (.inr ⟨ran, hran, rfl⟩)
    · exact .inl (.inl ⟨id, claim, ⟨_, hcall, rfl⟩, rfl⟩)

namespace World.SingleUse

variable (hsingle : world.SingleUse)

include hsingle in
theorem holder_of_step {label : Label} (hnext : step site world label = some next) :
    ∀ id other first second, next.Holds id first → next.Holds other second →
      first.pk = second.pk → id = other := by
  -- a row that is being claimed is pending, so nobody holds it
  have hopen {claim held : Claim} {other : Nat} {row : PendingAction}
      (hrow : world.rows.get claim.pk = some row) (hopen : row.isOpen claim.claimedAt = true)
      (hholds : world.Holds other held) (hpk : claim.pk = held.pk) : False := by
    have hspent := hsingle.spent claim.pk row (.inl ⟨other, held, hholds, hpk.symm⟩) hrow
    rw [(PendingAction.isOpen_iff.mp hopen).1] at hspent
    exact absurd hspent (by decide)
  intro id other first second hfirst hsecond hpk
  rcases holds_of_step hnext hfirst with hbefore | ⟨hcall, row, hrow, hfree, htaken⟩
  · rcases holds_of_step hnext hsecond with hlate | ⟨_, row, hrow, hfree, _⟩
    · exact hsingle.holder id other first second hbefore hlate hpk
    · exact (hopen hrow hfree hbefore hpk.symm).elim
  · rcases holds_of_step hnext hsecond with hlate | ⟨hother, _⟩
    · exact (hopen hrow hfree hlate hpk).elim
    by_contra hne
    obtain ⟨call, hafter, hclaim⟩ := hfirst
    obtain ⟨late, hlater, hlate⟩ := hsecond
    -- two claiming calls cannot both move in one step
    rcases step_advance hnext with ⟨hcalls, _⟩ | ⟨moved, after, hcalls, _⟩
    · rw [hcalls, hcall, Option.some.injEq] at hafter
      subst hafter
      cases hclaim
    · by_cases heq : id = moved
      · rw [hcalls, Function.update_of_ne (by rw [← heq]; exact Ne.symm hne), hother,
          Option.some.injEq] at hlater
        subst hlater
        cases hlate
      · rw [hcalls, Function.update_of_ne heq, hcall, Option.some.injEq] at hafter
        subst hafter
        cases hclaim

include hsingle in
theorem early_of_step {label : Label} (hnext : step site world label = some next) :
    ∀ id call claim, next.calls id = some call → call.claim? = some claim →
      call.isEarly = true → ∀ ran ∈ next.handled, ran.pk ≠ claim.pk := by
  intro id call claim hcall hclaim hearly
  have hholds : next.Holds id claim := ⟨call, hcall, hclaim⟩
  -- the handlers that ran before are no handlers of this row
  have hold : ∀ ran ∈ world.handled, ran.pk ≠ claim.pk := by
    intro ran hran heq
    rcases step_advance hnext with ⟨hcalls, _⟩ | ⟨moved, after, hcalls, hadvance⟩
    · exact hsingle.early id call claim (hcalls ▸ hcall) hclaim hearly ran hran heq
    rw [hcalls] at hcall
    by_cases hmoved : id = moved
    · subst hmoved
      rw [Function.update_self, Option.some.injEq] at hcall
      subst hcall
      cases hadvance with
      | dropped _ hafter _ =>
        rw [hafter] at hclaim
        cases hclaim
      | kept before _ kept hbefore hkept hafter hsame _ =>
        rw [hafter, Option.some.injEq] at hclaim
        subst hclaim
        exact hsingle.early id before kept hbefore hkept (hsame ▸ hearly) ran hran heq
      | took taken row _ hrow hopen _ _ =>
        cases hclaim
        have hspent := hsingle.spent claim.pk row (.inr ⟨ran, hran, heq⟩) hrow
        rw [(PendingAction.isOpen_iff.mp hopen).1] at hspent
        exact absurd hspent (by decide)
      | ran taken row _ _ => cases hearly
    · rw [Function.update_of_ne hmoved] at hcall
      exact hsingle.early id call claim hcall hclaim hearly ran hran heq
  rcases handled_of_step hnext with hsame | ⟨other, held, row, hother, hcalls, happend⟩
  · exact hsame ▸ hold
  intro ran hran
  rw [happend, List.mem_append, List.mem_singleton] at hran
  rcases hran with hran | rfl
  · exact hold ran hran
  intro heq
  -- the call that has just called the handler is no longer early
  have hne : id ≠ other := by
    rintro rfl
    rw [hcalls, Function.update_self, Option.some.injEq] at hcall
    subst hcall
    cases hearly
  rw [hcalls, Function.update_of_ne hne] at hcall
  exact hne (hsingle.holder id other claim held ⟨call, hcall, hclaim⟩ ⟨_, hother, rfl⟩ heq.symm)

include hsingle in
theorem once_of_step {label : Label} (hnext : step site world label = some next) :
    (next.handled.map HandlerCall.pk).Nodup := by
  rcases handled_of_step hnext with hsame | ⟨id, claim, row, hcall, _, happend⟩
  · exact hsame ▸ hsingle.once
  rw [happend, List.map_append, List.map_singleton, List.nodup_append]
  refine ⟨hsingle.once, List.nodup_singleton _, fun pk hpk other hother heq => ?_⟩
  obtain ⟨ran, hran, rfl⟩ := List.mem_map.mp hpk
  rw [List.mem_singleton] at hother
  exact hsingle.early id _ claim hcall rfl rfl ran hran (heq.trans hother)


end World.SingleUse

theorem World.Known.proposed_of_spent (hknown : world.Known) {pk : Nat}
    (hspent : world.Spent pk) : ∃ original, world.proposed pk = some original := by
  rcases hspent with ⟨id, claim, ⟨call, hcall, hclaim⟩, rfl⟩ | ⟨ran, hran, rfl⟩
  · have hcalls := hknown.calls id call hcall
    have hgrants : Proposals.Grants world.proposed claim := by
      cases call with
      | refreshing held => cases hclaim; exact hcalls
      | calling held row => cases hclaim; exact hcalls.1
      | running held => cases hclaim; exact hcalls
      | recording held outcome now => cases hclaim; exact hcalls.1
      | _ => cases hclaim
    obtain ⟨original, horiginal, _⟩ := hgrants
    exact ⟨original, horiginal⟩
  · obtain ⟨original, horiginal, _⟩ := hknown.handled ran hran
    exact ⟨original, horiginal⟩

/-- A row keeps a state in which it may be executed: only a pending row leaves for another,
and the outcome of a handler is no such state. -/
theorem spent_rows_of_step (hknown : world.Known) (hsingle : world.SingleUse) {label : Label}
    (hnext : step site world label = some next) :
    ∀ pk row, next.Spent pk → next.rows.get pk = some row →
      row.state ∈ [.executing, .completed, .failed] := by
  intro pk row hspent hrow
  rcases spent_of_step hnext hspent with hbefore | ⟨_, after, _, _, hafter, hexecuting⟩
  swap
  · rw [hafter, Option.some.injEq] at hrow
    subst hrow
    simp [hexecuting]
  have hstep := step_row hnext pk
  rw [hrow] at hstep
  generalize hold : world.rows.get pk = before at hstep
  cases hstep with
  | kept => exact hsingle.spent pk row hbefore hold
  | created id uuid proposal _ hpk =>
    obtain ⟨original, horiginal⟩ := hknown.proposed_of_spent hbefore
    exact absurd (hknown.keys pk original horiginal) (by omega)
  | left old _ hpending _ =>
    have hstate := hsingle.spent pk old hbefore hold
    rw [hpending] at hstate
    exact absurd hstate (by decide)
  | claimed old id claim => exact List.mem_cons_self
  | aged old _ id sweep _ _ _ _ _ hfailed => simp [hfailed]
  | recorded old _ id claim outcome now hcall _ _ _ hstate =>
    rcases (hknown.calls id _ hcall).2 with houtcome | houtcome
    · simp [hstate, houtcome]
    · simp [hstate, houtcome]

theorem step_single (hknown : world.Known) (hsingle : world.SingleUse) {label : Label}
    (hnext : step site world label = some next) : next.SingleUse where
  holder := hsingle.holder_of_step hnext
  early := hsingle.early_of_step hnext
  once := hsingle.once_of_step hnext
  spent := spent_rows_of_step hknown hsingle hnext

theorem single_start (clock : Time) (nextPk : Nat) : (World.start clock nextPk).SingleUse where
  holder := by
    rintro id other first second ⟨call, hcall, _⟩
    cases hcall
  early := fun _ _ _ hcall => nomatch hcall
  once := List.nodup_nil
  spent := fun _ _ _ hrow => nomatch hrow

/-! ### The claim stays with its holder -/

/-- A sweep gives up on no claim whose handler still runs: it took its time at most the timeout
after the claim. -/
def Timely (world : World) (label : Label) (_next : World) : Prop :=
  ∀ id sweep, label = .proceed id .none → world.calls id = some (.aging sweep) →
    ∀ other claim, world.Holds other claim → sweep.now ≤ claim.claimedAt + executingTimeout

def World.Executes (world : World) : Prop :=
  ∀ id claim, world.Holds id claim → ∃ row, world.rows.get claim.pk = some row ∧
    row.state = .executing ∧ row.modified = claim.claimedAt

theorem World.Executes.row_of_step (hexecutes : world.Executes) (hsingle : world.SingleUse)
    {label : Label} (htimely : Timely world label next)
    (hnext : step site world label = some next) {id : Nat} {claim : Claim}
    (hbefore : world.Holds id claim) (hafter : next.Holds id claim) :
    next.rows.get claim.pk = world.rows.get claim.pk := by
  obtain ⟨row, hrow, hexecuting, hmodified⟩ := hexecutes id claim hbefore
  have hstep := step_row hnext claim.pk
  rw [hrow] at hstep ⊢
  generalize hlater : next.rows.get claim.pk = later at hstep
  cases hstep with
  | kept => rfl
  | left _ after hpending _ =>
    rw [hexecuting] at hpending
    cases hpending
  | claimed _ other taken hcall hlabel hpk hopen =>
    have hpending := (PendingAction.isOpen_iff.mp hopen).1
    rw [hexecuting] at hpending
    cases hpending
  | aged _ after other sweep hcall hlabel _ hstale _ _ =>
    have hlimit := htimely other sweep hlabel hcall id claim hbefore
    rw [hmodified] at hstale
    exact absurd hlimit (not_le.mpr (Int.add_lt_of_lt_sub_right hstale))
  | recorded _ after other held outcome now hcall hlabel hpk _ _ =>
    -- the call that records an outcome is the holder, and lets the claim go
    have heq : id = other := hsingle.holder id other claim held hbefore ⟨_, hcall, rfl⟩ hpk
    subst heq hlabel
    obtain ⟨call, hcall', hclaim⟩ := hafter
    simp only [step, hcall, Option.bind_some, World.proceed] at hnext
    cases hnext
    rw [World.put_self, Option.some.injEq] at hcall'
    subst hcall'
    cases hclaim
  | deleted _ hterminal =>
    rw [hexecuting] at hterminal
    cases hterminal

theorem executes_of_step (hsingle : world.SingleUse) (hexecutes : world.Executes)
    {label : Label} (htimely : Timely world label next)
    (hnext : step site world label = some next) : next.Executes := by
  intro id claim hholds
  rcases holds_of_step hnext hholds with hbefore | ⟨_, row, _, _, htaken⟩
  · rw [hexecutes.row_of_step hsingle htimely hnext hbefore hholds]
    exact hexecutes id claim hbefore
  · exact ⟨_, htaken, rfl, rfl⟩

/-! ### Terminal rows -/

/-- A terminal row stays as it is until it is deleted; its key is not used again, and a
lapsed row is not executed. -/
structure Retires (first later : World) : Prop where
  kept : ∀ pk row after, first.rows.get pk = some row → row.state.isTerminal = true →
    later.rows.get pk = some after → after = row
  unused : ∀ pk row, first.rows.get pk = some row → row.state.isLapsed = true →
    ∀ ran ∈ later.handled, ran.pk ≠ pk

structure Retired (first later : World) : Prop where
  kept : ∀ pk row after, first.rows.get pk = some row → row.state.isTerminal = true →
    later.rows.get pk = some after → after = row
  known : ∀ pk row, first.rows.get pk = some row → pk < later.nextPk
  unspent : ∀ pk row, first.rows.get pk = some row → row.state.isLapsed = true →
    ¬ later.Spent pk

theorem Retired.retires {first later : World} (hretired : Retired first later) :
    Retires first later where
  kept := hretired.kept
  unused pk row hrow hlapsed ran hran heq :=
    hretired.unspent pk row hrow hlapsed (.inr ⟨ran, hran, heq⟩)

theorem ActionState.isTerminal_of_isLapsed {state : ActionState}
    (hlapsed : state.isLapsed = true) : state.isTerminal = true := by
  cases state with
  | canceled => rfl
  | expired => rfl
  | superseded => rfl
  | _ => cases hlapsed

theorem ActionState.isLapsed_of_mem {state : ActionState}
    (hmem : state ∈ [.executing, .completed, .failed]) : state.isLapsed = false := by
  simp only [List.mem_cons, List.not_mem_nil, or_false] at hmem
  rcases hmem with rfl | rfl | rfl
  · rfl
  · rfl
  · rfl

theorem World.SingleUse.retired (hknown : world.Known) (hsingle : world.SingleUse) :
    Retired world world where
  kept := fun pk row after hrow _ hafter => by
    rw [hrow, Option.some.injEq] at hafter
    exact hafter.symm
  known := fun pk row hrow => by
    obtain ⟨original, horiginal, _⟩ := hknown.rows pk row hrow
    exact hknown.keys pk original horiginal
  unspent := fun pk row hrow hlapsed hspent => by
    rw [ActionState.isLapsed_of_mem (hsingle.spent pk row hspent hrow)] at hlapsed
    cases hlapsed

theorem terminal_of_step (hexecutes : world.Executes)
    {label : Label} (hnext : step site world label = some next) {pk : Nat}
    {row after : PendingAction} (hrow : world.rows.get pk = some row)
    (hterminal : row.state.isTerminal = true) (hafter : next.rows.get pk = some after) :
    after = row := by
  have hstep := step_row hnext pk
  rw [hrow, hafter] at hstep
  cases hstep with
  | kept => rfl
  | left _ _ hpending _ =>
    rw [hpending] at hterminal
    cases hterminal
  | claimed _ id claim _ _ _ hopen =>
    rw [(PendingAction.isOpen_iff.mp hopen).1] at hterminal
    cases hterminal
  | aged _ _ id sweep _ _ hexecuting _ _ _ =>
    rw [hexecuting] at hterminal
    cases hterminal
  | recorded _ _ id claim outcome now hcall _ hpk _ _ =>
    obtain ⟨held, hheld, hexecuting, _⟩ := hexecutes id claim ⟨_, hcall, rfl⟩
    rw [← hpk, hrow, Option.some.injEq] at hheld
    rw [hheld, hexecuting] at hterminal
    cases hterminal

theorem nextPk_of_step {label : Label} (hnext : step site world label = some next) :
    world.nextPk ≤ next.nextPk := by
  rcases step_cases hnext with ⟨elapsed, rfl⟩ | ⟨id, call, _, _, rfl⟩ |
    ⟨id, input, call, rfl, hcall, hproceed⟩
  · exact le_rfl
  · exact le_rfl
  · rcases proceed_proposed hproceed with ⟨_, hpk⟩ | ⟨_, _, hpk⟩
    · exact hpk.ge
    · exact hpk ▸ Nat.le_succ _

theorem Retired.extend {first : World} (hretired : Retired first world)
    (hexecutes : world.Executes) {label : Label}
    (hnext : step site world label = some next) : Retired first next := by
  have hlast (pk : Nat) (row after : PendingAction) (hrow : first.rows.get pk = some row)
      (hterminal : row.state.isTerminal = true) (hafter : next.rows.get pk = some after) :
      world.rows.get pk = some row := by
    have hlt := hretired.known pk row hrow
    cases hbefore : world.rows.get pk with
    | some before =>
      rw [hretired.kept pk row before hrow hterminal hbefore]
    | none =>
      have hstep := step_row hnext pk
      rw [hbefore, hafter] at hstep
      cases hstep with
      | created _ _ _ _ hpk => omega
  refine ⟨fun pk row after hrow hterminal hafter => ?_, fun pk row hrow => ?_,
    fun pk row hrow hlapsed hspent => ?_⟩
  · exact terminal_of_step hexecutes hnext
      (hlast pk row after hrow hterminal hafter) hterminal hafter
  · exact (hretired.known pk row hrow).trans_le (nextPk_of_step hnext)
  · rcases spent_of_step hnext hspent with hbefore | ⟨before, after, hbefore, hpending, _⟩
    · exact hretired.unspent pk row hrow hlapsed hbefore
    have hterminal := ActionState.isTerminal_of_isLapsed hlapsed
    rw [hretired.kept pk row before hrow hterminal hbefore] at hpending
    rw [hpending] at hterminal
    cases hterminal

end DjangoMojo.Assistant
