import Mathlib.Data.Finset.Card
import DjangoMojo.Assistant.ApprovalRecords

/-! # What a conversation holds at rest

A proposal inserts its row first, then supersedes the older rows of its operation, then trims
the conversation. Until it has done so it owes these statements; a row that nobody owes anything
is settled, and there are never too many of those.
-/

namespace DjangoMojo.Assistant

open Foundation

variable {site : Site} {world next : World}

/-- A call still has to make room for a row, or to remove it. -/
def Call.Owes (pk : Nat) : Call → Prop
  | .superseding _ key _ | .capping _ key _ => key = pk
  | .trimming _ _ doomed => pk ∈ doomed
  | _ => False

namespace World

/-- A live row of a conversation that no call has anything left to do for. -/
def Settled (world : World) (conversation pk : Nat) : Prop :=
  (∃ row, world.rows.get pk = some row ∧ row.conversation = conversation ∧
    row.isOpen world.clock = true) ∧
  ∀ id call, world.calls id = some call → ¬ call.Owes pk

structure Capped (world : World) : Prop where
  few : ∀ conversation (keys : Finset Nat),
    (∀ pk ∈ keys, world.Settled conversation pk) → keys.card ≤ maxLivePerConversation
  lone : ∀ first second row other, first < second → world.rows.get first = some row →
    world.rows.get second = some other → row.state = .pending → other.state = .pending →
    row.conversation = other.conversation → row.toolName = other.toolName →
    row.argsFingerprint = other.argsFingerprint →
    ∃ id proposal created, world.calls id = some (.superseding proposal second created)

def live (world : World) (conversation : Nat) : List Nat :=
  world.rows.select fun _ row => row.conversation = conversation && row.isOpen world.clock

end World

theorem capped_start (clock : Time) (nextPk : Nat) : (World.start clock nextPk).Capped where
  few := by
    intro conversation keys hkeys
    rw [@Finset.eq_empty_of_forall_notMem _ keys]
    · exact Nat.zero_le _
    · intro pk hpk
      obtain ⟨⟨row, hrow, _⟩, _⟩ := hkeys pk hpk
      cases hrow
  lone := fun _ _ _ _ _ hrow => nomatch hrow

/-! ### Single steps -/

theorem clock_of_step {label : Label} (hnext : step site world label = some next) :
    world.clock ≤ next.clock := by
  rcases step_cases hnext with ⟨elapsed, rfl⟩ | ⟨id, call, _, _, rfl⟩ |
    ⟨id, input, call, rfl, hcall, hproceed⟩
  · exact Int.le_add_of_nonneg_right (Int.natCast_nonneg elapsed)
  · exact le_rfl
  · exact (proceed_clock hproceed).ge

/-- A row that is pending after a step was there as it is, or has just been created. -/
theorem pending_of_step (hknown : world.Known) {label : Label}
    (hnext : step site world label = some next) {pk : Nat} {row : PendingAction}
    (hrow : next.rows.get pk = some row) (hpending : row.state = .pending) :
    world.rows.get pk = some row ∨ ∃ id uuid proposal, label = .proceed id (.uuid uuid) ∧
      world.calls id = some (.inserting proposal) ∧ pk = world.nextPk := by
  have hstep := step_row hnext pk
  rw [hrow] at hstep
  generalize hold : world.rows.get pk = before at hstep
  cases hstep with
  | kept => exact .inl rfl
  | created id uuid proposal _ hpk hcall hlabel _ =>
    exact .inr ⟨id, uuid, proposal, hlabel, hcall, hpk⟩
  | left old _ _ hafter =>
    have hstate := hafter.2
    rw [hpending] at hstate
    exact absurd hstate (by decide)
  | claimed old id claim => cases hpending
  | aged old _ id sweep _ _ _ _ _ hfailed =>
    rw [hfailed] at hpending
    cases hpending
  | recorded old _ id claim outcome now hcall _ _ _ hstate =>
    rw [hstate] at hpending
    rcases (hknown.calls id _ hcall).2 with houtcome | houtcome
    · rw [houtcome] at hpending
      cases hpending
    · rw [houtcome] at hpending
      cases hpending

theorem inserting_of_step {id uuid : Nat} {proposal : Proposal}
    (hcall : world.calls id = some (.inserting proposal))
    (hnext : step site world (.proceed id (.uuid uuid)) = some next) :
    ∃ row, next.calls id = some (.superseding proposal world.nextPk row) := by
  simp only [step, hcall, Option.bind_some, World.proceed] at hnext
  split at hnext
  · cases hnext
  · cases hnext
    exact ⟨_, World.put_self ..⟩

/-- A call pays what it owes a row, unless it lists the rows that are too many. -/
theorem owes_of_proceed {id : Nat} {call : Call} {input : Input} {pk : Nat}
    (hnext : world.proceed site id call input = some next) (howes : call.Owes pk) :
    (∃ after, next.calls id = some after ∧ after.Owes pk) ∨
      (∃ (proposal : Proposal) (row : PendingAction), call = .capping proposal pk row ∧
        next = world.put id (.trimming proposal row
          ((world.liveKeys proposal.request.conversation proposal.now).drop
            maxLivePerConversation))) ∨
      ∀ row, next.rows.get pk = some row → row.state ≠ .pending := by
  revert hnext howes
  fun_cases World.proceed site world id call input
  case case5 proposal key row =>
    intro hnext howes
    cases hnext
    exact .inl ⟨_, World.put_self .., howes⟩
  case case6 proposal key row _ =>
    rintro hnext rfl
    cases hnext
    exact .inr (.inl ⟨proposal, row, rfl, rfl⟩)
  case case7 proposal row doomed =>
    intro hnext howes
    cases hnext
    refine .inr (.inr fun after hafter => ?_)
    obtain ⟨old, _, hcases⟩ := Table.updateWhere_cases hafter
    rcases hcases with ⟨_, rfl⟩ | ⟨hcondition, rfl⟩
    · intro heq
      cases heq
    · simpa [show pk ∈ doomed from howes] using hcondition
  all_goals
    intro hnext howes
    first
      | exact False.elim howes
      | cases hnext

theorem settled_of_step (hknown : world.Known) {label : Label}
    (hnext : step site world label = some next)
    (hlists : ∀ id proposal pk row, label = .proceed id .none →
      world.calls id ≠ some (.capping proposal pk row)) {conversation pk : Nat}
    (hsettled : next.Settled conversation pk) : world.Settled conversation pk := by
  obtain ⟨⟨row, hrow, hconversation, hopen⟩, hunowed⟩ := hsettled
  obtain ⟨hpending, hexpires⟩ := PendingAction.isOpen_iff.mp hopen
  rcases pending_of_step hknown hnext hrow hpending with hbefore | ⟨id, uuid, proposal, rfl, hcall, rfl⟩
  swap
  · obtain ⟨created, hafter⟩ := inserting_of_step hcall hnext
    exact absurd rfl (hunowed id _ hafter)
  refine ⟨⟨row, hbefore, hconversation, PendingAction.isOpen_iff.mpr ⟨hpending,
    (clock_of_step hnext).trans_lt hexpires⟩⟩, fun id call hcall howes => ?_⟩
  rcases step_cases hnext with ⟨elapsed, rfl⟩ | ⟨begun, first, _, hidle, rfl⟩ |
    ⟨moved, input, moving, rfl, hmoving, hproceed⟩
  · exact hunowed id call hcall howes
  · have hne : id ≠ begun := by
      rintro rfl
      rw [hidle] at hcall
      cases hcall
    exact hunowed id call (by rw [World.put_of_ne _ hne, hcall]) howes
  by_cases heq : id = moved
  · subst heq
    rw [hmoving, Option.some.injEq] at hcall
    subst hcall
    rcases owes_of_proceed hproceed howes with ⟨after, hafter, hstill⟩ | ⟨proposal, created, rfl, _⟩ |
      hgone
    · exact hunowed id after hafter hstill
    · cases input with
      | none => exact hlists id proposal pk created rfl hmoving
      | _ => cases hproceed
    · exact hgone row hrow hpending
  · obtain ⟨after, hcalls, _⟩ := hknown.proceed_call hmoving hproceed
    exact hunowed id call (by rw [hcalls, Function.update_of_ne heq, hcall]) howes

/-- Once a call has listed the rows that are too many, the settled ones of its conversation are
among those it keeps. -/
theorem few_of_capping (hknown : world.Known) (hcapped : world.Capped) {id pk : Nat}
    {proposal : Proposal} {created : PendingAction}
    (hcall : world.calls id = some (.capping proposal pk created))
    (hnext : step site world (.proceed id .none) = some next) (conversation : Nat)
    (keys : Finset Nat) (hkeys : ∀ key ∈ keys, next.Settled conversation key) :
    keys.card ≤ maxLivePerConversation := by
  simp only [step, hcall, Option.bind_some, World.proceed] at hnext
  cases hnext
  obtain ⟨hnow, original, horiginal, hoperation⟩ := hknown.calls id _ hcall
  by_cases heq : conversation = proposal.request.conversation
  · subst heq
    have hsubset : keys ⊆ ((world.liveKeys proposal.request.conversation proposal.now).take
        maxLivePerConversation).toFinset := by
      intro key hkey
      obtain ⟨⟨row, hrow, hconversation, hopen⟩, hunowed⟩ := hkeys key hkey
      have hkept : key ∉ (world.liveKeys proposal.request.conversation proposal.now).drop
          maxLivePerConversation := hunowed id _ (World.put_self ..)
      obtain ⟨hpending, hexpires⟩ := PendingAction.isOpen_iff.mp hopen
      have hlive : key ∈ world.liveKeys proposal.request.conversation proposal.now := by
        refine (List.perm_insertionSort _ _).mem_iff.mpr (Table.mem_select.mpr ⟨row, hrow, ?_⟩)
        rw [Bool.and_eq_true, decide_eq_true_iff]
        exact ⟨hconversation, PendingAction.isOpen_iff.mpr ⟨hpending, lt_of_le_of_lt hnow hexpires⟩⟩
      rw [← List.take_append_drop maxLivePerConversation
        (world.liveKeys proposal.request.conversation proposal.now), List.mem_append] at hlive
      exact List.mem_toFinset.mpr (hlive.resolve_right hkept)
    exact (Finset.card_le_card hsubset).trans
      ((List.toFinset_card_le _).trans (List.length_take_le _ _))
  · -- the row of the call belongs to another conversation
    refine hcapped.few conversation keys fun key hkey => ?_
    obtain ⟨hlive, hunowed⟩ := hkeys key hkey
    refine ⟨hlive, fun other call hother howes => ?_⟩
    by_cases hid : other = id
    · subst hid
      rw [hcall, Option.some.injEq] at hother
      subst hother
      obtain ⟨row, hrow, hconversation, _⟩ := hlive
      cases howes
      have hsame := hknown.expires horiginal hrow
      rw [← hconversation, hsame.conversation] at heq
      exact heq (PendingAction.isOperation_iff.mp hoperation).1
    · exact hunowed other call (by rw [World.put_of_ne _ hid, hother]) howes

theorem few_of_step (hknown : world.Known) (hcapped : world.Capped) {label : Label}
    (hnext : step site world label = some next) (conversation : Nat) (keys : Finset Nat)
    (hkeys : ∀ pk ∈ keys, next.Settled conversation pk) :
    keys.card ≤ maxLivePerConversation := by
  by_cases hlists : ∀ id proposal pk row, label = .proceed id .none →
      world.calls id ≠ some (.capping proposal pk row)
  · exact hcapped.few conversation keys fun pk hpk =>
      settled_of_step hknown hnext hlists (hkeys pk hpk)
  · push Not at hlists
    obtain ⟨id, proposal, pk, row, rfl, hcall⟩ := hlists
    exact few_of_capping hknown hcapped hcall hnext conversation keys hkeys

theorem lone_of_step (hknown : world.Known) (hcapped : world.Capped) {label : Label}
    (hnext : step site world label = some next) :
    ∀ first second row other, first < second → next.rows.get first = some row →
      next.rows.get second = some other → row.state = .pending → other.state = .pending →
      row.conversation = other.conversation → row.toolName = other.toolName →
      row.argsFingerprint = other.argsFingerprint →
      ∃ id proposal created, next.calls id = some (.superseding proposal second created) := by
  intro first second row other hlt hrow hother hpending hlate hconversation htool hfingerprint
  have hfirst (hcreated : first = world.nextPk) : False := by
    rcases pending_of_step hknown hnext hother hlate with hbefore | ⟨_, _, _, _, _, hsecond⟩
    · obtain ⟨original, horiginal, _⟩ := hknown.rows second other hbefore
      have hbound := hknown.keys second original horiginal
      omega
    · omega
  rcases pending_of_step hknown hnext hrow hpending with hbefore | ⟨_, _, _, _, _, hcreated⟩
  swap
  · exact (hfirst hcreated).elim
  rcases pending_of_step hknown hnext hother hlate with hlater |
    ⟨id, uuid, proposal, rfl, hcall, rfl⟩
  swap
  · obtain ⟨created, hafter⟩ := inserting_of_step hcall hnext
    exact ⟨id, proposal, created, hafter⟩
  obtain ⟨id, proposal, created, hcall⟩ := hcapped.lone first second row other hlt hbefore hlater
    hpending hlate hconversation htool hfingerprint
  refine ⟨id, proposal, created, ?_⟩
  rcases step_cases hnext with ⟨elapsed, rfl⟩ | ⟨begun, call, _, hidle, rfl⟩ |
    ⟨moved, input, moving, rfl, hmoving, hproceed⟩
  · exact hcall
  · have hne : id ≠ begun := by
      rintro rfl
      rw [hidle] at hcall
      cases hcall
    rw [World.put_of_ne _ hne, hcall]
  obtain ⟨after, hcalls, _⟩ := hknown.proceed_call hmoving hproceed
  by_cases heq : id = moved
  · -- the statement that supersedes the older row has just run
    subst heq
    rw [hmoving, Option.some.injEq] at hcall
    subst hcall
    obtain ⟨_, original, horiginal, hoperation⟩ := hknown.calls id _ hmoving
    obtain ⟨hsameConversation, hsameTool, hsameFingerprint⟩ :=
      PendingAction.isOperation_iff.mp hoperation
    have hsame := hknown.expires horiginal hlater
    have holder : row.isOperation proposal = true := by
      refine PendingAction.isOperation_iff.mpr ⟨?_, ?_, ?_⟩
      · rw [hconversation, hsame.conversation, hsameConversation]
      · rw [htool, hsame.toolName, hsameTool]
      · rw [hfingerprint, hsame.argsFingerprint, hsameFingerprint]
    cases input with
    | none =>
      cases hproceed
      have hgone : (world.rows.updateWhere (fun key other => key < second &&
          other.state = .pending && other.isOperation proposal)
          (·.moved .superseded proposal.now)).get first =
            some (row.moved .superseded proposal.now) :=
        Table.get_updateWhere_of_meets hbefore (by simp [hlt, hpending, holder])
      have hstate := hrow.symm.trans hgone
      rw [Option.some.injEq] at hstate
      rw [hstate] at hpending
      cases hpending
    | _ => cases hproceed
  · rw [hcalls, Function.update_of_ne heq, hcall]

theorem step_capped (hknown : world.Known) (hcapped : world.Capped) {label : Label}
    (hnext : step site world label = some next) : next.Capped where
  few := few_of_step hknown hcapped hnext
  lone := lone_of_step hknown hcapped hnext

/-! ### At rest -/

/-- When no call is under way, no conversation has too many live rows, nor two of one
operation. -/
theorem World.Capped.at_rest (hcapped : world.Capped) (hquiet : world.IsQuiet)
    (conversation : Nat) :
    (world.live conversation).length ≤ maxLivePerConversation ∧
      ∀ first second row other, first ∈ world.live conversation →
        second ∈ world.live conversation → world.rows.get first = some row →
        world.rows.get second = some other → row.toolName = other.toolName →
        row.argsFingerprint = other.argsFingerprint → first = second := by
  have hunowed (pk id : Nat) (call : Call) (hcall : world.calls id = some call) :
      ¬ call.Owes pk := by
    obtain ⟨reply, rfl⟩ := hquiet id call hcall
    exact not_false
  have hmem {pk : Nat} (hpk : pk ∈ world.live conversation) :
      ∃ row, world.rows.get pk = some row ∧ row.conversation = conversation ∧
        row.isOpen world.clock = true := by
    obtain ⟨row, hrow, hlive⟩ := Table.mem_select.mp hpk
    rw [Bool.and_eq_true, decide_eq_true_iff] at hlive
    exact ⟨row, hrow, hlive.1, hlive.2⟩
  constructor
  · have hnodup : (world.live conversation).Nodup := world.rows.nodup.filter _
    rw [← List.toFinset_card_of_nodup hnodup]
    exact hcapped.few conversation _ fun pk hpk =>
      ⟨hmem (List.mem_toFinset.mp hpk), hunowed pk⟩
  -- of two rows of one operation the newer one would still have its statement to run
  have hlone {first second : Nat} {row other : PendingAction} (hlt : first < second)
      (hfirst : first ∈ world.live conversation) (hsecond : second ∈ world.live conversation)
      (hrow : world.rows.get first = some row) (hother : world.rows.get second = some other)
      (htool : row.toolName = other.toolName)
      (hfingerprint : row.argsFingerprint = other.argsFingerprint) : False := by
    obtain ⟨_, hget, hconversation, hopen⟩ := hmem hfirst
    cases hrow.symm.trans hget
    obtain ⟨_, hget', hconversation', hopen'⟩ := hmem hsecond
    cases hother.symm.trans hget'
    obtain ⟨id, proposal, created, hcall⟩ := hcapped.lone first second row other hlt hrow hother
      (PendingAction.isOpen_iff.mp hopen).1 (PendingAction.isOpen_iff.mp hopen').1
      (hconversation.trans hconversation'.symm) htool hfingerprint
    exact hunowed second id _ hcall rfl
  intro first second row other hfirst hsecond hrow hother htool hfingerprint
  rcases Nat.lt_trichotomy first second with hlt | heq | hlt
  · exact (hlone hlt hfirst hsecond hrow hother htool hfingerprint).elim
  · exact heq
  · exact (hlone hlt hsecond hfirst hother hrow htool.symm hfingerprint.symm).elim

end DjangoMojo.Assistant
