import DjangoMojo.Incidents.Suppression

/-! # What the limiters of a report keep

The notices that are set lie a window apart, and the numbers under a budget differ as long as
the bucket lasts. Both follow from what the store has of them.
-/

namespace DjangoMojo.Incidents.Suppression

open Foundation

variable {limits : String → Limits}

def written {Row : Type} (entries : Nat → Option Row) (id : Nat) (row : Option Row) :
    Nat → Option Row := fun other => if other = id then row else entries other

theorem written_of_eq {Row : Type} {entries : Nat → Option Row} {id : Nat} {row : Option Row}
    (hrow : entries id = row) : written entries id row = entries := by
  funext other
  rw [written]
  split
  next heq => rw [heq, hrow]
  · rfl

structure Notice where
  category : String
  key : String
  time : Nat

namespace Notice

def text (notice : Notice) : String := noticeKey notice.category notice.key

def ends (limits : String → Limits) (notice : Notice) : Nat :=
  notice.time + (limits notice.category).windowMs

end Notice

/-- Notices that are set under one key lie apart, and the store has the last one. -/
structure NoticeBook (limits : String → Limits) (store : ExpiringKeys String Nat) (now : Nat)
    (notices : Nat → Option Notice) : Prop where
  past : ∀ id notice, notices id = some notice → notice.time ≤ now
  standing : ∀ id notice, notices id = some notice → now < notice.ends limits →
    ∃ value, store notice.text = some ⟨value, some (notice.ends limits)⟩
  sourced : ∀ category key entry, store (noticeKey category key) = some entry →
    ∃ id notice, notices id = some notice ∧ notice.text = noticeKey category key ∧
      entry.expires = some (notice.ends limits)
  apart : ∀ id other first second, id ≠ other → notices id = some first →
    notices other = some second → first.text = second.text →
    first.ends limits ≤ second.time ∨ second.ends limits ≤ first.time

structure TicketBook (limits : String → Limits) (store : ExpiringKeys String Nat) (now : Nat)
    (tickets : Nat → Option (String × Ticket)) : Prop where
  past : ∀ id category ticket, tickets id = some (category, ticket) →
    ticket.time ≤ now ∧ 0 < ticket.number
  lasting : ∀ category bucket entry, store (budgetKey category bucket) = some entry →
    ∀ expires, entry.expires = some expires → (limits category).bucketEnd bucket ≤ expires
  counted : ∀ id category ticket, tickets id = some (category, ticket) →
    now < (limits category).bucketEnd ticket.bucket →
    ∃ entry, store (budgetKey category ticket.bucket) = some entry ∧ ticket.number ≤ entry.value
  distinct : ∀ id other category first second, id ≠ other → tickets id = some (category, first) →
    tickets other = some (category, second) → first.bucket = second.bucket →
    first.time < (limits category).bucketEnd first.bucket →
    second.time < (limits category).bucketEnd first.bucket → first.number ≠ second.number

/-! ### Notices -/

namespace NoticeBook

variable {store next : ExpiringKeys String Nat} {now : Nat} {notices : Nat → Option Notice}

theorem start : NoticeBook limits (fun _ => none) 0 fun _ => none := by
  refine ⟨fun _ _ hnotice => ?_, fun _ _ hnotice => ?_, fun _ _ _ hentry => ?_,
    fun _ _ _ _ _ hnotice => ?_⟩
  · cases hnotice
  · cases hnotice
  · cases hentry
  · cases hnotice

theorem tick (hbook : NoticeBook limits store now notices) (milliseconds : Nat) :
    NoticeBook limits store (now + milliseconds) notices where
  past id notice hnotice := (hbook.past id notice hnotice).trans (Nat.le_add_right _ _)
  standing id notice hnotice hlater :=
    hbook.standing id notice hnotice (lt_of_le_of_lt (Nat.le_add_right _ _) hlater)
  sourced := hbook.sourced
  apart := hbook.apart

/-- Commands on budget keys leave the notices alone. -/
theorem congr (hbook : NoticeBook limits store now notices)
    (hsame : ∀ category key, next (noticeKey category key) = store (noticeKey category key)) :
    NoticeBook limits next now notices := by
  refine ⟨hbook.past, fun id notice hnotice hlater => ?_, fun category key entry hentry => ?_,
    hbook.apart⟩
  · rw [Notice.text, hsame]
    exact hbook.standing id notice hnotice hlater
  · rw [hsame] at hentry
    exact hbook.sourced category key entry hentry

theorem set (hbook : NoticeBook limits store now notices) {id : Nat} {notice : Notice}
    (hfree : store.live now notice.text = none) (htime : notice.time = now)
    (hid : notices id = none) :
    NoticeBook limits (store.write notice.text (some ⟨1, some (notice.ends limits)⟩)) now
      (written notices id (some notice)) := by
  -- An earlier notice under the key is over.
  have hover : ∀ other earlier, notices other = some earlier → earlier.text = notice.text →
      earlier.ends limits ≤ now := by
    intro other earlier hearlier htext
    by_contra hlater
    obtain ⟨value, hentry⟩ := hbook.standing other earlier hearlier (not_le.mp hlater)
    rw [htext] at hentry
    have hlive := store.live_of_get now hentry (decide_eq_true (not_le.mp hlater))
    rw [hfree] at hlive
    cases hlive
  unfold written
  refine ⟨fun other known hknown => ?_, fun other known hknown hlater => ?_,
    fun category key entry hentry => ?_, fun first second left right hne hleft hright htext => ?_⟩
  · split at hknown
    · cases hknown
      exact htime.le
    · exact hbook.past other known hknown
  · split at hknown
    · cases hknown
      exact ⟨1, ExpiringKeys.write_self _ _ _⟩
    · by_cases htext : known.text = notice.text
      · exact absurd (hover other known hknown htext) (not_le.mpr hlater)
      · rw [ExpiringKeys.write_of_ne _ htext]
        exact hbook.standing other known hknown hlater
  · by_cases htext : noticeKey category key = notice.text
    · rw [htext, ExpiringKeys.write_self] at hentry
      cases hentry
      exact ⟨id, notice, if_pos rfl, htext.symm, rfl⟩
    · rw [ExpiringKeys.write_of_ne _ htext] at hentry
      obtain ⟨other, known, hknown, hsame, hexpires⟩ := hbook.sourced category key entry hentry
      refine ⟨other, known, ?_, hsame, hexpires⟩
      rw [if_neg]
      · exact hknown
      · rintro rfl
        rw [hid] at hknown
        cases hknown
  · split at hleft
    next hfirst =>
      split at hright
      next hsecond => exact absurd (hfirst.trans hsecond.symm) hne
      next =>
        cases hleft
        exact .inr (htime ▸ hover second right hright htext.symm)
    next =>
      split at hright
      next =>
        cases hright
        exact .inl (htime ▸ hover first left hleft htext)
      next => exact hbook.apart first second left right hne hleft hright htext

/-- Where a notice is there, a call has set it less than its window ago. -/
theorem exists_of_live (hbook : NoticeBook limits store now notices) {category key : String}
    {entry : Expiring Nat} (hlive : store.live now (noticeKey category key) = some entry) :
    ∃ id notice, notices id = some notice ∧ notice.text = noticeKey category key ∧
      notice.time ≤ now ∧ now < notice.ends limits := by
  obtain ⟨hentry, hstill⟩ := store.get_of_live now hlive
  obtain ⟨id, notice, hnotice, htext, hexpires⟩ := hbook.sourced category key entry hentry
  refine ⟨id, notice, hnotice, htext, hbook.past id notice hnotice, ?_⟩
  rw [Expiring.isLive, hexpires] at hstill
  exact of_decide_eq_true hstill

end NoticeBook

/-! ### Budgets -/

namespace TicketBook

variable {store next : ExpiringKeys String Nat} {now : Nat}
  {tickets : Nat → Option (String × Ticket)}

theorem start : TicketBook limits (fun _ => none) 0 fun _ => none := by
  refine ⟨fun _ _ _ hticket => ?_, fun _ _ _ hentry => ?_, fun _ _ _ hticket => ?_,
    fun _ _ _ _ _ _ hticket => ?_⟩
  · cases hticket
  · cases hentry
  · cases hticket
  · cases hticket

theorem tick (hbook : TicketBook limits store now tickets) (milliseconds : Nat) :
    TicketBook limits store (now + milliseconds) tickets where
  past id category ticket hticket :=
    ⟨(hbook.past id category ticket hticket).1.trans (Nat.le_add_right _ _),
      (hbook.past id category ticket hticket).2⟩
  lasting := hbook.lasting
  counted id category ticket hticket hlater :=
    hbook.counted id category ticket hticket (lt_of_le_of_lt (Nat.le_add_right _ _) hlater)
  distinct := hbook.distinct

theorem congr (hbook : TicketBook limits store now tickets)
    (hsame : ∀ category bucket, next (budgetKey category bucket) = store (budgetKey category bucket)) :
    TicketBook limits next now tickets := by
  refine ⟨hbook.past, fun category bucket entry hentry => ?_,
    fun id category ticket hticket hlater => ?_, hbook.distinct⟩
  · rw [hsame] at hentry
    exact hbook.lasting category bucket entry hentry
  · rw [hsame]
    exact hbook.counted id category ticket hticket hlater

theorem live_of_counted (hbook : TicketBook limits store now tickets) {id : Nat} {category : String}
    {ticket : Ticket} (hticket : tickets id = some (category, ticket))
    (hlasts : now < (limits category).bucketEnd ticket.bucket) :
    ∃ entry, store.live now (budgetKey category ticket.bucket) = some entry ∧
      ticket.number ≤ entry.value := by
  obtain ⟨entry, hentry, hvalue⟩ := hbook.counted id category ticket hticket hlasts
  refine ⟨entry, store.live_of_get now hentry ?_, hvalue⟩
  rw [Expiring.isLive, Option.all_eq_true]
  intro expires hexpires
  exact decide_eq_true (lt_of_lt_of_le hlasts (hbook.lasting category _ entry hentry expires hexpires))

theorem increment (hbook : TicketBook limits store now tickets) {id bucket : Nat}
    {category : String} :
    TicketBook limits (store.increment now (budgetKey category bucket)).1 now
      (written tickets id
        (some (category, ⟨bucket, (store.increment now (budgetKey category bucket)).2, now⟩))) := by
  obtain ⟨expires, hself, hexpires⟩ : ∃ expires,
      (store.increment now (budgetKey category bucket)).1 (budgetKey category bucket) =
        some ⟨(store.increment now (budgetKey category bucket)).2, expires⟩ ∧
      ∀ instant, expires = some instant → (limits category).bucketEnd bucket ≤ instant := by
    unfold ExpiringKeys.increment
    split
    next entry hlive =>
      exact ⟨entry.expires, ExpiringKeys.write_self _ _ _,
        hbook.lasting category bucket entry (store.get_of_live now hlive).1⟩
    next => exact ⟨none, ExpiringKeys.write_self _ _ _, fun _ hnone => nomatch hnone⟩
  -- As long as the bucket lasts, the number is beyond those handed out.
  have hnext : now < (limits category).bucketEnd bucket → ∀ other ticket,
      tickets other = some (category, ticket) → ticket.bucket = bucket →
      ticket.number < (store.increment now (budgetKey category bucket)).2 := by
    intro hlasts other ticket hticket hbucket
    rw [← hbucket] at hlasts
    obtain ⟨entry, hlive, hvalue⟩ := hbook.live_of_counted hticket hlasts
    rw [hbucket] at hlive
    rw [ExpiringKeys.increment, hlive]
    exact Nat.lt_succ_of_le hvalue
  unfold written
  refine ⟨fun other known ticket hticket => ?_, fun known last entry hentry => ?_,
    fun other known ticket hticket hlasts => ?_,
    fun first second known left right hne hleft hright hbucket hpromptly hsecond => ?_⟩
  · split at hticket
    · cases hticket
      refine ⟨le_refl now, ?_⟩
      rw [ExpiringKeys.increment]
      split
      · exact Nat.succ_pos _
      · exact Nat.one_pos
    · exact hbook.past other known ticket hticket
  · by_cases hkey : budgetKey known last = budgetKey category bucket
    · obtain ⟨rfl, rfl⟩ := budgetKey_inj hkey
      rw [hself] at hentry
      cases hentry
      exact hexpires
    · rw [store.increment_of_ne now hkey] at hentry
      exact hbook.lasting known last entry hentry
  · split at hticket
    · cases hticket
      exact ⟨_, hself, le_refl _⟩
    · by_cases hkey : budgetKey known ticket.bucket = budgetKey category bucket
      · obtain ⟨rfl, hbucket⟩ := budgetKey_inj hkey
        rw [hkey]
        refine ⟨_, hself, le_of_lt (hnext ?_ other ticket hticket hbucket)⟩
        rwa [← hbucket]
      · rw [store.increment_of_ne now hkey]
        exact hbook.counted other known ticket hticket hlasts
  · split at hleft
    next hfirst =>
      split at hright
      next hagain => exact absurd (hfirst.trans hagain.symm) hne
      next =>
        cases hleft
        exact (hnext hpromptly second right hright hbucket.symm).ne'
    next =>
      split at hright
      next =>
        cases hright
        rw [hbucket] at hsecond
        exact (hnext hsecond first left hleft hbucket).ne
      next =>
        exact hbook.distinct first second known left right hne hleft hright hbucket hpromptly hsecond

theorem expire (hbook : TicketBook limits store now tickets) {category : String} {bucket : Nat}
    (hbucket : bucket * 1000 ≤ now) :
    TicketBook limits (store.expire now (budgetKey category bucket) (limits category).windowMs) now
      tickets := by
  unfold ExpiringKeys.expire
  split
  next entry hlive =>
    refine ⟨hbook.past, fun known last found hfound => ?_,
      fun id known ticket hticket hlasts => ?_, hbook.distinct⟩
    · by_cases hkey : budgetKey known last = budgetKey category bucket
      · obtain ⟨rfl, rfl⟩ := budgetKey_inj hkey
        rw [ExpiringKeys.write_self] at hfound
        cases hfound
        intro expires hexpires
        cases hexpires
        rw [Limits.bucketEnd, Limits.windowMs, Nat.add_mul]
        exact Nat.add_le_add_right hbucket _
      · rw [ExpiringKeys.write_of_ne _ hkey] at hfound
        exact hbook.lasting known last found hfound
    · obtain ⟨found, hfound, hvalue⟩ := hbook.counted id known ticket hticket hlasts
      by_cases hkey : budgetKey known ticket.bucket = budgetKey category bucket
      · rw [hkey] at hfound ⊢
        rw [(store.get_of_live now hlive).1] at hfound
        cases hfound
        exact ⟨_, ExpiringKeys.write_self _ _ _, hvalue⟩
      · rw [ExpiringKeys.write_of_ne _ hkey]
        exact ⟨found, hfound, hvalue⟩
  next => exact hbook

end TicketBook

end DjangoMojo.Incidents.Suppression
