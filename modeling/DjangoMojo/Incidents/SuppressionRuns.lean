import DjangoMojo.Incidents.SuppressionBooks

/-! # How suppressed reports bound the incident table

A call is judged when its commands run; its event is filed later, however long that takes. By the
instants of the checks, the events of one category and key lie a window apart, and each bucket
lets a budget of them through.
-/

namespace DjangoMojo.Incidents.Suppression

open Foundation

variable {limits : String → Limits}

/-! ### The property -/

namespace System

variable (system : System)

def callsOf (category : String) (passes : Call → Bool) : List (Nat × Call) :=
  system.calls.rows.filter fun entry => entry.2.category = category && passes entry.2

end System

structure Bounded (limits : String → Limits) (system : System) : Prop where
  spaced : ∀ id other first second left right, id ≠ other →
    system.calls.get id = some first → system.calls.get other = some second →
    first.category = second.category → first.key = second.key →
    first.filed = some left → second.filed = some right →
    left + (limits first.category).windowMs ≤ right ∨
      right + (limits first.category).windowMs ≤ left
  budgeted : ∀ category bucket budget, (limits category).budget = some budget →
    (system.callsOf category fun call =>
      call.filed.any fun time => (limits category).bucketAt time = bucket).length ≤ budget ∧
    (system.callsOf category fun call =>
      call.marked.any fun time => (limits category).bucketAt time = bucket).length ≤ 1
  returned : ∀ id call, system.calls.get id = some call → call.phase ≠ .finished .raised
  apart : ∀ id call, system.calls.get id = some call → call.phase = .finished .suppressed →
    ∃ other earlier, other ≠ id ∧ system.calls.get other = some earlier ∧
      earlier.category = call.category ∧ earlier.key = call.key

/-- The clock was read, and the number taken, in one bucket. -/
def Ticket.isPrompt (limits : Limits) (bucket : Nat) (ticket : Ticket) : Bool :=
  ticket.bucket = bucket && ticket.time < limits.bucketEnd bucket

structure Judged (limits : String → Limits) (system : System) : Prop where
  checked : ∀ id call time, system.calls.get id = some call → call.filed = some time →
    ∃ asked, call.noticed = true ∧ call.asked = some asked ∧ asked ≤ time
  spaced : ∀ id other first second left right, id ≠ other →
    system.calls.get id = some first → system.calls.get other = some second →
    first.category = second.category → first.key = second.key →
    first.filed.isSome → second.filed.isSome →
    first.asked = some left → second.asked = some right →
    left + (limits first.category).windowMs ≤ right ∨
      right + (limits first.category).windowMs ≤ left
  budgeted : ∀ category bucket budget, (limits category).budget = some budget →
    (system.callsOf category fun call => call.filed.isSome &&
      call.ticket.any fun ticket => ticket.isPrompt (limits category) bucket).length ≤ budget ∧
    (system.callsOf category fun call => call.marked.isSome &&
      call.ticket.any fun ticket => ticket.isPrompt (limits category) bucket).length ≤ 1
  returned : ∀ id call, system.calls.get id = some call → call.phase ≠ .finished .raised
  apart : ∀ id call, system.calls.get id = some call → call.phase = .finished .suppressed →
    ∃ other earlier left right, other ≠ id ∧ system.calls.get other = some earlier ∧
      noticeKey earlier.category earlier.key = noticeKey call.category call.key ∧
      (earlier.category = call.category → earlier.key = call.key) ∧
      earlier.asked = some left ∧ call.asked = some right ∧ left ≤ right ∧
      right < left + (limits earlier.category).windowMs

/-! ### The invariant -/

def Call.notice (call : Call) : Option Notice :=
  if call.noticed then call.asked.map fun time => ⟨call.category, call.key, time⟩ else none

namespace System

def notices (system : System) (id : Nat) : Option Notice := (system.calls.get id).bind Call.notice

def tickets (system : System) (id : Nat) : Option (String × Ticket) :=
  (system.calls.get id).bind fun call => call.ticket.map fun ticket => (call.category, ticket)

end System

def Call.Within (limits : Limits) (call : Call) : Prop :=
  ∀ budget, limits.budget = some budget → ∃ ticket, call.ticket = some ticket ∧
    ticket.number ≤ budget

/-- The number of a call is the first one beyond the budget. -/
def Call.Beyond (limits : Limits) (call : Call) : Prop :=
  ∃ budget ticket, limits.budget = some budget ∧ call.ticket = some ticket ∧
    ticket.number = budget + 1

def Call.PhaseSound (limits : Limits) (now : Nat) (call : Call) : Phase → Prop
  | .claiming => call.noticed = false ∧ call.ticket = none
  | .reading => call.noticed = true ∧ call.ticket = none ∧ limits.budget.isSome
  | .counting bucket => call.noticed = true ∧ call.ticket = none ∧ limits.budget.isSome ∧
      bucket * 1000 ≤ now
  | .expiring bucket number => call.noticed = true ∧ limits.budget.isSome ∧ bucket * 1000 ≤ now ∧
      ∃ ticket, call.ticket = some ticket ∧ ticket.number = number
  | .marking => call.Beyond limits
  | .filing => call.noticed = true ∧ call.Within limits
  | .finished outcome => outcome ≠ .raised

structure CallSound (limits : Limits) (now : Nat) (call : Call) : Prop where
  closed : call.failOpen = false
  asked : call.noticed = true → ∃ asked, call.asked = some asked ∧ asked ≤ now
  filed : ∀ time, call.filed = some time → call.noticed = true ∧
    (∃ asked, call.asked = some asked ∧ asked ≤ time) ∧ call.Within limits
  marked : call.marked.isSome → call.Beyond limits
  busy : (∀ outcome, call.phase ≠ .finished outcome) → call.filed = none ∧ call.marked = none
  phased : call.PhaseSound limits now call.phase

/-- A call that was suppressed asked while another one had the notice. -/
def Explained (limits : String → Limits) (notices : Nat → Option Notice) (id : Nat) (call : Call) :
    Prop :=
  call.phase = .finished .suppressed → ∃ asked other notice, call.asked = some asked ∧ other ≠ id ∧
    notices other = some notice ∧ notice.text = noticeKey call.category call.key ∧
    notice.time ≤ asked ∧ asked < notice.ends limits

structure Sound (limits : String → Limits) (system : System) : Prop where
  calls : ∀ id call, system.calls.get id = some call →
    CallSound (limits call.category) system.now call
  notices : NoticeBook limits system.store system.now system.notices
  tickets : TicketBook limits system.store system.now system.tickets
  explained : ∀ id call, system.calls.get id = some call →
    Explained limits system.notices id call

/-! ### One command -/

section Commands

variable {system : System} {id : Nat} {call : Call}

theorem notices_put (system : System) (store : ExpiringKeys String Nat) (id : Nat) (call : Call) :
    System.notices { system with store, calls := system.calls.put id call } =
      written system.notices id call.notice := by
  funext other
  rw [System.notices, Table.get_put, written]
  split
  · rfl
  · rfl

def Call.numbered (call : Call) : Option (String × Ticket) :=
  call.ticket.map fun ticket => (call.category, ticket)

theorem tickets_put (system : System) (store : ExpiringKeys String Nat) (id : Nat) (call : Call) :
    System.tickets { system with store, calls := system.calls.put id call } =
      written system.tickets id call.numbered := by
  funext other
  rw [System.tickets, Table.get_put, written]
  split
  · rfl
  · rfl

structure Commanded (limits : String → Limits) (system : System) (id : Nat) (call : Call)
    (store : ExpiringKeys String Nat) (next : Call) : Prop where
  category : next.category = call.category
  closed : next.failOpen = false
  sound : CallSound (limits call.category) system.now next
  notices : NoticeBook limits store system.now (written system.notices id next.notice)
  tickets : TicketBook limits store system.now (written system.tickets id next.numbered)
  explained : Explained limits system.notices id next
  kept : ∀ notice, system.notices id = some notice → next.notice = some notice

theorem CallSound.finish {limits : Limits} {now : Nat} {call : Call}
    (hsound : CallSound limits now call) {outcome : Outcome} (houtcome : outcome ≠ .raised) :
    CallSound limits now { call with phase := .finished outcome } where
  closed := hsound.closed
  asked := hsound.asked
  filed := hsound.filed
  marked := hsound.marked
  busy hbusy := absurd rfl (hbusy outcome)
  phased := houtcome

theorem CallSound.tick {limits : Limits} {now : Nat} {call : Call}
    (hsound : CallSound limits now call) (milliseconds : Nat) :
    CallSound limits (now + milliseconds) call := by
  have hlater := Nat.le_add_right now milliseconds
  refine ⟨hsound.closed, fun hnoticed => ?_, hsound.filed, hsound.marked, hsound.busy, ?_⟩
  · obtain ⟨asked, hasked, hle⟩ := hsound.asked hnoticed
    exact ⟨asked, hasked, hle.trans hlater⟩
  · have hphased := hsound.phased
    cases hphase : call.phase with
    | counting bucket =>
      rw [hphase] at hphased
      obtain ⟨hnoticed, hticket, hbudget, hbucket⟩ := hphased
      exact ⟨hnoticed, hticket, hbudget, hbucket.trans hlater⟩
    | expiring bucket number =>
      rw [hphase] at hphased
      obtain ⟨hnoticed, hbudget, hbucket, hticket⟩ := hphased
      exact ⟨hnoticed, hbudget, hbucket.trans hlater, hticket⟩
    | claiming | reading | marking | filing | finished =>
      rw [hphase] at hphased
      exact hphased

theorem bucketAt_le (limits : Limits) (now : Nat) : limits.bucketAt now * 1000 ≤ now := by
  have hseconds := Nat.div_mul_le_self (now / 1000) limits.window
  have hmilliseconds := Nat.div_mul_le_self now 1000
  calc limits.bucketAt now * 1000 ≤ now / 1000 * 1000 := Nat.mul_le_mul_right 1000 hseconds
    _ ≤ now := hmilliseconds

theorem CallSound.judged {limits : Limits} {now budget number : Nat} {call : Call} {ticket : Ticket}
    (hclosed : call.failOpen = false) (hnoticed : call.noticed = true)
    (hasked : ∃ asked, call.asked = some asked ∧ asked ≤ now) (hbudget : limits.budget = some budget)
    (hticket : call.ticket = some ticket) (hnumber : ticket.number = number)
    (hbusy : call.filed = none ∧ call.marked = none) :
    CallSound limits now { call with phase := Call.judged (limits.budget.getD 0) number } := by
  refine ⟨hclosed, fun _ => hasked, fun time htime => ?_, fun hmarked => ?_, fun _ => hbusy, ?_⟩
  · cases hbusy.1.symm.trans htime
  · have hnone : call.marked = none := hbusy.2
    change call.marked.isSome at hmarked
    rw [hnone] at hmarked
    cases hmarked
  · rw [hbudget, Option.getD_some]
    unfold Call.judged
    dsimp only
    split
    · split
      next heq => exact ⟨budget, ticket, hbudget, hticket, hnumber.trans heq⟩
      · exact fun hraised => nomatch hraised
    next hle =>
      refine ⟨hnoticed, fun known hknown => ⟨ticket, hticket, ?_⟩⟩
      cases hbudget.symm.trans hknown
      rw [hnumber]
      exact not_lt.mp hle

theorem Commanded.quiet {store : ExpiringKeys String Nat} {next : Call}
    (hcall : system.calls.get id = some call) (hcategory : next.category = call.category)
    (hnotice : next.notice = call.notice) (hnumbered : next.numbered = call.numbered)
    (hsound : CallSound (limits call.category) system.now next)
    (hphase : next.phase ≠ .finished .suppressed)
    (hnotices : NoticeBook limits store system.now system.notices)
    (htickets : TicketBook limits store system.now system.tickets) :
    Commanded limits system id call store next := by
  have hold : system.notices id = call.notice := by rw [System.notices, hcall]; rfl
  have hknown : system.tickets id = call.numbered := by rw [System.tickets, hcall]; rfl
  refine ⟨hcategory, hsound.closed, hsound, ?_, ?_, fun hfinished => absurd hfinished hphase,
    fun notice hmine => ?_⟩
  · rw [hnotice, written_of_eq hold]
    exact hnotices
  · rw [hnumbered, written_of_eq hknown]
    exact htickets
  · rw [hnotice, ← hold, hmine]

theorem Sound.commanded_claiming (hsound : Sound limits system)
    (hcall : system.calls.get id = some call) (hphase : call.phase = .claiming) :
    Commanded limits system id call
      (call.command (limits call.category) system.store system.now).1
      (call.command (limits call.category) system.store system.now).2 := by
  have hown := hsound.calls id call hcall
  obtain ⟨hfiled, hmarked⟩ := hown.busy fun outcome heq => nomatch hphase.symm.trans heq
  have hphased := hown.phased
  rw [hphase] at hphased
  obtain ⟨hnew, hunnumbered⟩ := hphased
  have hnone : call.notice = none := by rw [Call.notice, hnew]; rfl
  have hold : system.notices id = none := by
    rw [System.notices, hcall]
    exact hnone
  have hknown : system.tickets id = call.numbered := by rw [System.tickets, hcall]; rfl
  have hunmarked : ¬ call.marked.isSome := by rw [hmarked]; exact Bool.false_ne_true
  unfold Call.command ExpiringKeys.setNew
  rw [hphase]
  cases hlive : system.store.live system.now (noticeKey call.category call.key) with
  | some entry =>
    dsimp only
    refine ⟨rfl, hown.closed, ⟨hown.closed, fun hnoticed => ?_, fun time htime => ?_,
      fun hsome => absurd hsome hunmarked, fun _ => ⟨hfiled, hmarked⟩, fun hraised => ?_⟩,
      ?_, ?_, fun _ => ?_, fun notice hnotice => ?_⟩
    · cases hnoticed
    · cases hfiled.symm.trans htime
    · cases hraised
    · exact (written_of_eq hold).symm ▸ hsound.notices
    · exact (written_of_eq hknown).symm ▸ hsound.tickets
    · obtain ⟨other, notice, hnotice, htext, hpast, hlasts⟩ := hsound.notices.exists_of_live hlive
      refine ⟨system.now, other, notice, rfl, fun heq => ?_, hnotice, htext, hpast, hlasts⟩
      rw [heq, hold] at hnotice
      cases hnotice
    · cases hold.symm.trans hnotice
  | none =>
    dsimp only
    have hset := @NoticeBook.set _ _ _ _ hsound.notices id ⟨call.category, call.key, system.now⟩
      hlive rfl hold
    have hbook : TicketBook limits (system.store.write (noticeKey call.category call.key)
        (some ⟨1, some (system.now + (limits call.category).windowMs)⟩)) system.now
        system.tickets := by
      refine hsound.tickets.congr fun category bucket => ExpiringKeys.write_of_ne _ ?_ _
      exact (noticeKey_ne_budgetKey _ _ _ _).symm
    refine ⟨rfl, hown.closed, ⟨hown.closed, fun _ => ⟨system.now, rfl, le_refl _⟩,
      fun time htime => ?_, fun hsome => absurd hsome hunmarked, fun _ => ⟨hfiled, hmarked⟩, ?_⟩,
      hset, ?_, fun hsuppressed => ?_, fun notice hnotice => ?_⟩
    · cases hfiled.symm.trans htime
    · cases hbudget : (limits call.category).budget with
      | none => exact ⟨rfl, fun budget hsome => nomatch hbudget.symm.trans hsome⟩
      | some budget => exact ⟨rfl, hunnumbered, by rw [hbudget]; rfl⟩
    · exact (written_of_eq hknown).symm ▸ hbook
    · dsimp only at hsuppressed
      rw [if_neg (by decide)] at hsuppressed
      split at hsuppressed
      · cases hsuppressed
      · cases hsuppressed
    · cases hold.symm.trans hnotice

theorem judged_ne_suppressed (budget number : Nat) :
    Call.judged budget number ≠ .finished .suppressed := by
  unfold Call.judged
  split
  · split
    · exact fun heq => nomatch heq
    · exact fun heq => nomatch heq
  · exact fun heq => nomatch heq

theorem Sound.commanded_counting (hsound : Sound limits system)
    (hcall : system.calls.get id = some call) {bucket : Nat} (hphase : call.phase = .counting bucket) :
    Commanded limits system id call
      (call.command (limits call.category) system.store system.now).1
      (call.command (limits call.category) system.store system.now).2 := by
  have hown := hsound.calls id call hcall
  have hbusy := hown.busy fun outcome heq => nomatch hphase.symm.trans heq
  have hphased := hown.phased
  rw [hphase] at hphased
  obtain ⟨hnoticed, hunnumbered, hbudget, hbucket⟩ := hphased
  obtain ⟨budget, hbudget⟩ := Option.isSome_iff_exists.mp hbudget
  have hnotices : NoticeBook limits
      (system.store.increment system.now (budgetKey call.category bucket)).1 system.now
      system.notices :=
    hsound.notices.congr fun _ _ =>
      system.store.increment_of_ne system.now (noticeKey_ne_budgetKey _ _ _ _)
  have htickets := @TicketBook.increment _ _ _ _ hsound.tickets id bucket call.category
  have hold : system.notices id = call.notice := by rw [System.notices, hcall]; rfl
  unfold Call.command
  rw [hphase]
  dsimp only
  generalize system.store.increment system.now (budgetKey call.category bucket) = answer
    at hnotices htickets ⊢
  obtain ⟨store, number⟩ := answer
  refine ⟨rfl, hown.closed, ?_, ?_, htickets, fun hsuppressed => ?_, fun notice hnotice => ?_⟩
  · by_cases hfirst : number = 1
    · rw [if_pos hfirst]
      refine ⟨hown.closed, hown.asked, fun time htime => ?_, fun hmarked => ?_, fun _ => hbusy,
        hnoticed, ?_, hbucket, _, rfl, rfl⟩
      · cases hbusy.1.symm.trans htime
      · change call.marked.isSome at hmarked
        rw [hbusy.2] at hmarked
        cases hmarked
      · rw [hbudget]
        rfl
    · rw [if_neg hfirst]
      exact @CallSound.judged _ _ _ _ { call with ticket := some ⟨bucket, number, system.now⟩ } _
        hown.closed hnoticed (hown.asked hnoticed) hbudget rfl rfl hbusy
  · exact (written_of_eq hold).symm ▸ hnotices
  · dsimp only at hsuppressed
    split at hsuppressed
    · cases hsuppressed
    · exact absurd hsuppressed (judged_ne_suppressed _ _)
  · exact hold.symm.trans hnotice

theorem Sound.commanded (hsound : Sound limits system) (hcall : system.calls.get id = some call)
    (hbusy : ∀ outcome, call.phase ≠ .finished outcome) :
    Commanded limits system id call
      (call.command (limits call.category) system.store system.now).1
      (call.command (limits call.category) system.store system.now).2 := by
  have hown := hsound.calls id call hcall
  have hnothing := hown.busy hbusy
  have hphased := hown.phased
  cases hphase : call.phase with
  | claiming => exact hsound.commanded_claiming hcall hphase
  | reading =>
    rw [hphase] at hphased
    obtain ⟨hnoticed, hunnumbered, hbudget⟩ := hphased
    unfold Call.command
    rw [hphase]
    refine Commanded.quiet hcall rfl rfl rfl ?_ (fun heq => nomatch heq) hsound.notices
      hsound.tickets
    refine ⟨hown.closed, hown.asked, hown.filed, hown.marked, fun _ => hnothing, hnoticed,
      hunnumbered, hbudget, bucketAt_le _ _⟩
  | counting bucket => exact hsound.commanded_counting hcall hphase
  | expiring bucket number =>
    rw [hphase] at hphased
    obtain ⟨hnoticed, hbudget, hbucket, ticket, hticket, hnumber⟩ := hphased
    obtain ⟨budget, hbudget⟩ := Option.isSome_iff_exists.mp hbudget
    unfold Call.command
    rw [hphase]
    refine Commanded.quiet hcall rfl rfl rfl ?_ (judged_ne_suppressed _ _) ?_
      (hsound.tickets.expire hbucket)
    · exact CallSound.judged hown.closed hnoticed (hown.asked hnoticed) hbudget hticket hnumber
        hnothing
    · exact hsound.notices.congr fun _ _ =>
        system.store.expire_of_ne system.now (noticeKey_ne_budgetKey _ _ _ _) _
  | marking =>
    rw [hphase] at hphased
    unfold Call.command
    rw [hphase]
    refine Commanded.quiet hcall rfl rfl rfl ?_ (fun heq => nomatch heq) hsound.notices
      hsound.tickets
    exact ⟨hown.closed, hown.asked, hown.filed, fun _ => hphased,
      fun hbusy => absurd rfl (hbusy .dropped), fun heq => nomatch heq⟩
  | filing =>
    rw [hphase] at hphased
    obtain ⟨hnoticed, hwithin⟩ := hphased
    unfold Call.command
    rw [hphase]
    refine Commanded.quiet hcall rfl rfl rfl ?_ (fun heq => nomatch heq) hsound.notices
      hsound.tickets
    refine ⟨hown.closed, hown.asked, fun time htime => ?_, hown.marked,
      fun hbusy => absurd rfl (hbusy .filed), fun heq => nomatch heq⟩
    cases htime
    exact ⟨hnoticed, hown.asked hnoticed, hwithin⟩
  | finished outcome => exact absurd hphase (hbusy outcome)

theorem raise_eq {next : Call} (hclosed : next.failOpen = false) {phase : Phase}
    (hphase : phase.block.isSome) : ∃ outcome, outcome ≠ .raised ∧ outcome ≠ .suppressed ∧
      ({ next with phase } : Call).raise = { next with phase := .finished outcome } := by
  unfold Call.raise
  dsimp only
  cases hblock : phase.block with
  | none =>
    rw [hblock] at hphase
    cases hphase
  | some block =>
    cases block with
    | limiter =>
      refine ⟨.failed, by decide, by decide, ?_⟩
      dsimp only
      rw [hclosed, if_neg Bool.false_ne_true]
    | marker => exact ⟨.dropped, by decide, by decide, rfl⟩
    | filing => exact ⟨.failed, by decide, by decide, rfl⟩

/-- A command that was answered, or that failed after it took effect. -/
theorem Sound.put (hsound : Sound limits system)
    {store : ExpiringKeys String Nat} {next final : Call}
    (hcommanded : Commanded limits system id call store next)
    (hfinal : final = next ∨ ∃ outcome, outcome ≠ .raised ∧ outcome ≠ .suppressed ∧
      final = { next with phase := .finished outcome }) :
    Sound limits { system with store, calls := system.calls.put id final } := by
  have hsame : final.category = call.category ∧ final.notice = next.notice ∧
      final.numbered = next.numbered := by
    rcases hfinal with rfl | ⟨outcome, _, _, rfl⟩
    · exact ⟨hcommanded.category, rfl, rfl⟩
    · exact ⟨hcommanded.category, rfl, rfl⟩
  obtain ⟨hcategory, hnotice, hnumbered⟩ := hsame
  -- The notices that were set are still set.
  have hkept : ∀ other notice, system.notices other = some notice →
      written system.notices id final.notice other = some notice := by
    intro other notice hold
    rw [written]
    split
    next heq =>
      rw [heq] at hold
      rw [hnotice]
      exact hcommanded.kept notice hold
    · exact hold
  have hwider : ∀ other known, Explained limits system.notices other known →
      Explained limits (written system.notices id final.notice) other known := by
    intro other known hexplained hphase
    obtain ⟨asked, earlier, notice, hasked, hne, hearlier, hrest⟩ := hexplained hphase
    exact ⟨asked, earlier, notice, hasked, hne, hkept earlier notice hearlier, hrest⟩
  refine ⟨fun other known hknown => ?_, ?_, ?_, fun other known hknown => ?_⟩
  · rw [Table.get_put] at hknown
    split at hknown
    · cases hknown
      rw [hcategory]
      rcases hfinal with rfl | ⟨outcome, houtcome, _, rfl⟩
      · exact hcommanded.sound
      · exact hcommanded.sound.finish houtcome
    · exact hsound.calls other known hknown
  · rw [notices_put, hnotice]
    exact hcommanded.notices
  · rw [tickets_put, hnumbered]
    exact hcommanded.tickets
  · rw [notices_put]
    apply hwider
    rw [Table.get_put] at hknown
    split at hknown
    next heq =>
      cases hknown
      rw [heq]
      rcases hfinal with rfl | ⟨outcome, _, hsuppressed, rfl⟩
      · exact hcommanded.explained
      · exact fun hphase => absurd (Phase.finished.inj hphase) hsuppressed
    · exact hsound.explained other known hknown

end Commands

/-! ### Runs -/

section Runs

variable {system next : System}

theorem Sound.begin (hsound : Sound limits system) {id : Nat} {category key : String}
    (hid : system.calls.get id = none) :
    Sound limits { system with
      calls := system.calls.put id { category, key, failOpen := false } } := by
  let call : Call := { category, key, failOpen := false }
  have hold : system.notices id = none := by
    rw [System.notices, hid]
    rfl
  have hknown : system.tickets id = none := by
    rw [System.tickets, hid]
    rfl
  have hnotices : System.notices { system with calls := system.calls.put id call } =
      system.notices := (notices_put system system.store id call).trans (written_of_eq hold)
  have htickets : System.tickets { system with calls := system.calls.put id call } =
      system.tickets := (tickets_put system system.store id call).trans (written_of_eq hknown)
  refine ⟨fun other known hfound => ?_, ?_, ?_, fun other known hfound => ?_⟩
  · rw [Table.get_put] at hfound
    split at hfound
    · cases hfound
      exact ⟨rfl, (fun hnoticed => nomatch hnoticed), (fun _ htime => nomatch htime),
        (fun hmarked => nomatch hmarked), fun _ => ⟨rfl, rfl⟩, rfl, rfl⟩
    · exact hsound.calls other known hfound
  · exact hnotices.symm ▸ hsound.notices
  · exact htickets.symm ▸ hsound.tickets
  · change Explained limits (System.notices { system with calls := system.calls.put id call }) _ _
    rw [hnotices]
    rw [Table.get_put] at hfound
    split at hfound
    · cases hfound
      exact fun hphase => nomatch hphase
    · exact hsound.explained other known hfound

theorem Sound.tick (hsound : Sound limits system) (milliseconds : Nat) :
    Sound limits { system with now := system.now + milliseconds } where
  calls id call hcall := (hsound.calls id call hcall).tick milliseconds
  notices := hsound.notices.tick milliseconds
  tickets := hsound.tickets.tick milliseconds
  explained := hsound.explained

theorem Sound.advance (hsound : Sound limits system) {id : Nat} {fault : Fault}
    (hnext : step limits system (.advance id fault) = some next) : Sound limits next := by
  obtain ⟨call, hcall, hnext⟩ := Option.bind_eq_some_iff.mp hnext
  dsimp only at hnext
  split at hnext
  · cases hnext
  next hblock =>
    have hbusy : ∀ outcome, call.phase ≠ .finished outcome := by
      intro outcome heq
      rw [heq] at hblock
      exact hblock rfl
    have hsome : call.phase.block.isSome := by
      cases hphase : call.phase.block with
      | none => exact absurd (by rw [hphase]; rfl) hblock
      | some block => rfl
    have hcommanded := hsound.commanded hcall hbusy
    cases fault with
    | none =>
      cases hnext
      exact hsound.put hcommanded (.inl rfl)
    | before =>
      cases hnext
      have hown := hsound.calls id call hcall
      -- The call as it is, with its books as they are.
      have hquiet : Commanded limits system id call system.store call := by
        refine Commanded.quiet hcall rfl rfl rfl hown (hbusy _) hsound.notices hsound.tickets
      obtain ⟨outcome, hraised, hsuppressed, heq⟩ := raise_eq hown.closed hsome
      exact hsound.put hquiet (.inr ⟨outcome, hraised, hsuppressed, heq⟩)
    | after =>
      cases hnext
      obtain ⟨outcome, hraised, hsuppressed, heq⟩ := raise_eq hcommanded.closed hsome
      exact hsound.put hcommanded (.inr ⟨outcome, hraised, hsuppressed, heq⟩)

theorem Sound.step {action : Action} (hsound : Sound limits system)
    (hclosed : FailClosed system action next) (hnext : step limits system action = some next) :
    Sound limits next := by
  cases action with
  | begin id category key failOpen =>
    have hopen : failOpen = false := hclosed
    subst hopen
    unfold Suppression.step at hnext
    dsimp only at hnext
    split at hnext
    · cases hnext
    next hid =>
      cases hnext
      exact hsound.begin (by simpa using hid)
  | advance id fault => exact hsound.advance hnext
  | tick milliseconds =>
    cases hnext
    exact hsound.tick milliseconds

theorem notices_of_noticed {id asked : Nat} {call : Call} (hcall : system.calls.get id = some call)
    (hnoticed : call.noticed = true) (hasked : call.asked = some asked) :
    system.notices id = some ⟨call.category, call.key, asked⟩ := by
  rw [System.notices, hcall, Option.bind_some, Call.notice, if_pos hnoticed, hasked, Option.map_some]

theorem of_notices {id : Nat} {notice : Notice} (hnotice : system.notices id = some notice) :
    ∃ call, system.calls.get id = some call ∧ call.noticed = true ∧
      call.asked = some notice.time ∧ call.category = notice.category ∧ call.key = notice.key := by
  obtain ⟨call, hcall, hset⟩ := Option.bind_eq_some_iff.mp hnotice
  refine ⟨call, hcall, ?_⟩
  unfold Call.notice at hset
  split at hset
  next hnoticed =>
    obtain ⟨asked, hasked, rfl⟩ := Option.map_eq_some_iff.mp hset
    exact ⟨hnoticed, hasked, rfl, rfl⟩
  · cases hset

/-- Calls that hold different numbers up to a bound are no more than the bound. -/
theorem Sound.length_callsOf (hsound : Sound limits system) {category : String} {high : Nat}
    {passes : Call → Bool} (bucket low : Nat)
    (hpasses : ∀ id call, system.calls.get id = some call → passes call = true →
      call.category = category → ∃ ticket, call.ticket = some ticket ∧
        ticket.isPrompt (limits category) bucket = true ∧ low < ticket.number ∧ ticket.number ≤ high) :
    (system.callsOf category passes).length ≤ high - low := by
  let number : Nat × Call → Nat := fun entry => entry.2.ticket.elim 0 Ticket.number
  have hentry : ∀ entry ∈ system.callsOf category passes, system.calls.get entry.1 = some entry.2 ∧
      entry.2.category = category ∧ passes entry.2 = true := by
    rintro ⟨id, call⟩ hmem
    obtain ⟨hrow, hcondition⟩ := List.mem_filter.mp hmem
    simp only [Bool.and_eq_true, decide_eq_true_eq] at hcondition
    exact ⟨Table.mem_rows.mp hrow, hcondition⟩
  have hinjective : ∀ first ∈ system.callsOf category passes,
      ∀ second ∈ system.callsOf category passes, number first = number second → first = second := by
    rintro ⟨id, first⟩ hfirst ⟨other, second⟩ hsecond hnumber
    obtain ⟨hid, hcategory, hfirst⟩ := hentry _ hfirst
    obtain ⟨hother, hsame, hsecond⟩ := hentry _ hsecond
    obtain ⟨left, hleft, hprompt, -⟩ := hpasses id first hid hfirst hcategory
    obtain ⟨right, hright, hpromptly, -⟩ := hpasses other second hother hsecond hsame
    dsimp only [number] at hnumber
    rw [hleft, hright] at hnumber
    by_contra hne
    have hids : id ≠ other := by
      rintro rfl
      cases hid.symm.trans hother
      exact hne rfl
    simp only [Ticket.isPrompt, Bool.and_eq_true, decide_eq_true_eq] at hprompt hpromptly
    obtain ⟨hbucket, hearly⟩ := hprompt
    obtain ⟨hbucket', hearly'⟩ := hpromptly
    refine hsound.tickets.distinct id other category left right hids ?_ ?_
      (hbucket.trans hbucket'.symm) (hbucket.symm ▸ hearly) (hbucket.symm ▸ hearly') hnumber
    · rw [System.tickets, hid, Option.bind_some, hleft, Option.map_some, hcategory]
    · rw [System.tickets, hother, Option.bind_some, hright, Option.map_some, hsame]
  have hnodup : ((system.callsOf category passes).map number).Nodup :=
    (system.calls.rows_nodup.filter _).map_on fun first hfirst second hsecond =>
      hinjective first hfirst second hsecond
  have hsubset : (system.callsOf category passes).map number ⊆ List.range' (low + 1) (high - low) := by
    intro found hfound
    obtain ⟨entry, hmem, rfl⟩ := List.mem_map.mp hfound
    obtain ⟨hid, hcategory, hpassed⟩ := hentry entry hmem
    obtain ⟨ticket, hticket, -, hlow, hhigh⟩ := hpasses entry.1 entry.2 hid hpassed hcategory
    have hnumber : number entry = ticket.number := by
      dsimp only [number]
      rw [hticket]
      rfl
    rw [List.mem_range'_1, hnumber]
    omega
  have hlength := (List.subperm_of_subset hnodup hsubset).length_le
  rwa [List.length_map, List.length_range'] at hlength

theorem Sound.judged (hsound : Sound limits system) : Judged limits system := by
  refine ⟨fun id call time hcall htime => ?_, ?_, fun category bucket budget hbudget => ⟨?_, ?_⟩,
    fun id call hcall hraised => ?_, fun id call hcall hphase => ?_⟩
  · obtain ⟨hnoticed, ⟨asked, hasked, hle⟩, -⟩ := (hsound.calls id call hcall).filed time htime
    exact ⟨asked, hnoticed, hasked, hle⟩
  · intro id other first second left right hne hfirst hsecond hcategory hkey hfiled hfiled' hleft hright
    obtain ⟨time, htime⟩ := Option.isSome_iff_exists.mp hfiled
    obtain ⟨time', htime'⟩ := Option.isSome_iff_exists.mp hfiled'
    have hnoticed := ((hsound.calls id first hfirst).filed time htime).1
    have hnoticed' := ((hsound.calls other second hsecond).filed time' htime').1
    have happart := hsound.notices.apart id other _ _ hne
      (notices_of_noticed hfirst hnoticed hleft) (notices_of_noticed hsecond hnoticed' hright)
      (by rw [Notice.text, Notice.text, hcategory, hkey])
    rw [Notice.ends, Notice.ends, ← hcategory] at happart
    exact happart
  · refine hsound.length_callsOf bucket 0 fun id call hcall hpasses hcategory => ?_
    rw [Bool.and_eq_true] at hpasses
    obtain ⟨hfiled, hprompt⟩ := hpasses
    obtain ⟨time, htime⟩ := Option.isSome_iff_exists.mp hfiled
    obtain ⟨-, -, hwithin⟩ := (hsound.calls id call hcall).filed time htime
    obtain ⟨ticket, hticket, hnumber⟩ := hwithin budget (by rw [hcategory]; exact hbudget)
    rw [hticket] at hprompt
    refine ⟨ticket, hticket, hprompt, ?_, hnumber⟩
    refine (hsound.tickets.past id call.category ticket ?_).2
    rw [System.tickets, hcall, Option.bind_some, hticket, Option.map_some]
  · have hone := @Sound.length_callsOf _ _ hsound category (budget + 1)
      (fun call => call.marked.isSome &&
        call.ticket.any fun ticket => ticket.isPrompt (limits category) bucket)
      bucket budget fun id call hcall hpasses hcategory => ?_
    · rwa [Nat.add_sub_cancel_left] at hone
    rw [Bool.and_eq_true] at hpasses
    obtain ⟨hmarked, hprompt⟩ := hpasses
    obtain ⟨known, ticket, hknown, hticket, hnumber⟩ := (hsound.calls id call hcall).marked hmarked
    rw [hcategory, hbudget] at hknown
    cases hknown
    rw [hticket] at hprompt
    refine ⟨ticket, hticket, hprompt, ?_, hnumber.le⟩
    rw [hnumber]
    exact Nat.lt_succ_self budget
  · have hphased := (hsound.calls id call hcall).phased
    rw [hraised] at hphased
    exact hphased rfl
  · obtain ⟨asked, other, notice, hasked, hne, hnotice, htext, hpast, hlasts⟩ :=
      hsound.explained id call hcall hphase
    obtain ⟨earlier, hearlier, -, hset, hcategory, hkey⟩ := of_notices hnotice
    have hsame : noticeKey earlier.category earlier.key = noticeKey call.category call.key := by
      rw [hcategory, hkey]
      exact htext
    refine ⟨other, earlier, notice.time, asked, hne, hearlier, hsame, fun heq => ?_, hset, hasked,
      hpast, ?_⟩
    · rw [heq] at hsame
      exact noticeKey_inj hsame
    · rw [hcategory]
      exact hlasts

/-- By the instants of its checks, suppressed reporting keeps its bounds along every run of calls
that fail closed. -/
theorem always_judged (limits : String → Limits) {actions : List Action}
    (hclosed : EachStep (step limits) FailClosed {} actions) :
    Always (step limits) (Judged limits) {} actions := by
  have hstart : Sound limits {} := by
    refine ⟨fun _ _ hcall => ?_, NoticeBook.start, TicketBook.start, fun _ _ hcall => ?_⟩
    · cases hcall
    · cases hcall
  have halways : Always (step limits) (Sound limits) {} actions :=
    always_of_eachStep (fun _ _ _ hsound hcondition hnext => hsound.step hcondition hnext) hstart
      hclosed
  exact halways.imp fun _ hsound => hsound.judged

end Runs

/-! ### Where events are filed late -/

def oneASecond : String → Limits := fun _ => ⟨1, some 1⟩

/-- Calls with two keys, each up to its filing, a second apart, and then both filings. -/
def lateFilings (first second : String) : List Action :=
  [.begin 1 "auth" first false, .advance 1 .none, .advance 1 .none, .advance 1 .none,
    .advance 1 .none, .tick 1000, .begin 2 "auth" second false, .advance 2 .none, .advance 2 .none,
    .advance 2 .none, .advance 2 .none, .advance 1 .none, .advance 2 .none]

def oneNotice : List Action :=
  [.begin 1 "a" "b:c" false, .advance 1 .none, .begin 2 "a:b" "c" false, .advance 2 .none]

def spacedBy (system : System) (window : Nat) : Bool :=
  (system.calls.get 1).all fun first => (system.calls.get 2).all fun second =>
    first.filed.all fun left => second.filed.all fun right =>
      decide (first.category = second.category → first.key = second.key →
        left + window ≤ right ∨ right + window ≤ left)

def apartFrom (system : System) (id : Nat) : Bool :=
  (system.calls.get id).all fun call => call.phase ≠ .finished .suppressed ||
    system.calls.rows.any fun entry => entry.1 ≠ id && entry.2.category = call.category &&
      entry.2.key = call.key

instance FailClosed.decidable (system : System) (action : Action) (next : System) :
    Decidable (FailClosed system action next) :=
  match action with
  | .begin _ _ _ failOpen => inferInstanceAs (Decidable (failOpen = false))
  | .advance .. => isTrue trivial
  | .tick _ => isTrue trivial

set_option maxRecDepth 4000 in
/-- By the instants at which events are filed, the bounds fail: two events of one key fall into
one window, and two of different keys under a budget of one. A notice can suppress the call of
another category. -/
theorem not_always_bounded :
    (EachStep (step oneASecond) FailClosed {} (lateFilings "k" "k") ∧
      ¬ Always (step oneASecond) (Bounded oneASecond) {} (lateFilings "k" "k")) ∧
    (EachStep (step oneASecond) FailClosed {} (lateFilings "k" "l") ∧
      ¬ Always (step oneASecond) (Bounded oneASecond) {} (lateFilings "k" "l")) ∧
    (EachStep (step oneASecond) FailClosed {} oneNotice ∧
      ¬ Always (step oneASecond) (Bounded oneASecond) {} oneNotice) := by
  refine ⟨⟨by decide, ?_⟩, ⟨by decide, ?_⟩, by decide, ?_⟩
  · refine not_always_of_run (fun system => spacedBy system 1000) (fun system hbounded => ?_)
      (by decide)
    simp only [spacedBy, Option.all_eq_true, decide_eq_true_eq]
    intro first hfirst second hsecond left hleft right hright hcategory hkey
    exact hbounded.spaced 1 2 first second left right (by decide) hfirst hsecond hcategory hkey
      hleft hright
  · refine not_always_of_run (fun system => decide ((system.callsOf "auth" fun call =>
      call.filed.any fun time => (oneASecond "auth").bucketAt time = 1).length ≤ 1))
      (fun system hbounded => ?_) (by decide)
    exact decide_eq_true (hbounded.budgeted "auth" 1 1 rfl).1
  · refine not_always_of_run (fun system => apartFrom system 2) (fun system hbounded => ?_)
      (by decide)
    rw [apartFrom, Option.all_eq_true]
    intro call hcall
    by_cases hphase : call.phase = .finished .suppressed
    · obtain ⟨other, earlier, hne, hearlier, hcategory, hkey⟩ := hbounded.apart 2 call hcall hphase
      rw [Bool.or_eq_true, List.any_eq_true]
      refine .inr ⟨(other, earlier), Table.mem_rows.mpr hearlier, ?_⟩
      simp only [Bool.and_eq_true, decide_eq_true_eq]
      exact ⟨⟨hne, hcategory⟩, hkey⟩
    · rw [Bool.or_eq_true]
      exact .inl (decide_eq_true hphase)

set_option maxRecDepth 4000 in
theorem always_judged_lateFilings :
    Always (step oneASecond) (Judged oneASecond) {} (lateFilings "k" "k") :=
  always_judged oneASecond (by decide)

end DjangoMojo.Incidents.Suppression
