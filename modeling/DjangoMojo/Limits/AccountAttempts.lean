import Mathlib.Data.Finset.Max
import Mathlib.Data.Rat.Floor
import Mathlib.Tactic.Linarith
import DjangoMojo.Limits.SlidingWindow

/-! # The attempts on an account

Every attempt is a hit in a sorted set, whether it is refused or not. The view of the set counts
the hits of the window and tells from the oldest one when the next attempt is let through.
-/

namespace DjangoMojo.Limits

/-- The sorted set of an account, where the score of a member is its name. -/
structure Attempts where
  hits : Finset Time
  expires : Option Time

structure View where
  count : Nat
  limit : Option Int
  window : Option Nat
  retryAfterSeconds : Int

/-- `int(value)` -/
def truncate (value : ℚ) : Int := if 0 ≤ value then ⌊value⌋ else ⌈value⌉

namespace Attempts

def alive (attempts : Attempts) (now : Time) : Finset Time :=
  if attempts.expires.any fun ends => ends < now then ∅ else attempts.hits

/-- `check_account_attempt`: the set after it, the count, and whether the attempt is let through.
`EXPIRE` with no seconds deletes the set. -/
def check (attempts : Attempts) (limit : Int) (window : Nat) (now : Time) :
    Attempts × Nat × Bool :=
  let kept := (attempts.alive now).filter fun hit => ¬ (0 ≤ hit ∧ hit ≤ now - window)
  let hits := insert now kept
  (if window = 0 then ⟨∅, none⟩ else ⟨hits, some (now + window * 2)⟩, hits.card,
    decide ((hits.card : Int) ≤ limit))

/-- `read_account_attempt` -/
def read (attempts : Attempts) (limit : Option Int) (window : Option Nat) (now : Time) : View :=
  match window with
  | none => ⟨0, limit, none, 0⟩
  | some seconds =>
    let seen := (attempts.alive now).filter fun hit => now - seconds ≤ hit
    let retryAfter : Int :=
      match limit with
      | none => 0
      | some limit =>
        if limit ≤ seen.card then
          if hseen : seen.Nonempty then
            max 1 (truncate (seen.min' hseen + seconds - now) + 1)
          else max 1 seconds
        else 0
    ⟨seen.card, limit, window, retryAfter⟩

/-- What the attempts at some times leave, on a clock that never goes back. -/
inductive Reaches (limit : Int) (window : Nat) : Time → Attempts → Prop
  | start {clock : Time} (hclock : 0 ≤ clock) : Reaches limit window clock ⟨∅, none⟩
  | wait {clock later : Time} {attempts : Attempts} (hreaches : Reaches limit window clock attempts)
      (hlater : clock ≤ later) : Reaches limit window later attempts
  | check {clock : Time} {attempts : Attempts} (hreaches : Reaches limit window clock attempts) :
      Reaches limit window clock (attempts.check limit window clock).1

def Allows (attempts : Attempts) (limit : Int) (window : Nat) (now : Time) : Prop :=
  (attempts.check limit window now).2.2 = true

/-- The view says that there is no wait exactly when an attempt would be let through, and an
attempt after the wait that it names would be. -/
def Agrees (attempts : Attempts) (limit : Int) (window : Nat) (now : Time) : Prop :=
  let retryAfter := (attempts.read (some limit) (some window) now).retryAfterSeconds
  (retryAfter = 0 ↔ attempts.Allows limit window now) ∧
    (retryAfter ≠ 0 → attempts.Allows limit window (now + retryAfter))

/-- When the window is full, it is full without the hits on its two edges, and fewer hits than
the limit come after the second in which its oldest hit leaves it. -/
def Foreseen (attempts : Attempts) (limit : Int) (window : Nat) (now : Time) : Prop :=
  limit ≤ (attempts.hits.filter fun hit => now - window ≤ hit).card →
    limit ≤ (attempts.hits.filter fun hit => now - window < hit ∧ hit ≠ now).card ∧
    ∃ oldest ∈ attempts.hits, now - window ≤ oldest ∧
      (∀ hit ∈ attempts.hits, now - window ≤ hit → oldest ≤ hit) ∧
      ((attempts.hits.filter fun hit =>
        now - window + (⌊oldest - (now - window)⌋ + 1) < hit).card : Int) < limit

variable {limit : Int} {window : Nat} {now clock : Time} {attempts : Attempts}

/-- The hits lie in the past, and the set outlives their windows. -/
structure Sound (window : Nat) (clock : Time) (attempts : Attempts) : Prop where
  start : 0 ≤ clock
  hits : ∀ hit ∈ attempts.hits, 0 ≤ hit ∧ hit ≤ clock
  expires : ∀ hit ∈ attempts.hits, ∀ ends ∈ attempts.expires, hit + window * 2 ≤ ends

theorem Reaches.sound (hreaches : Reaches limit window clock attempts) :
    attempts.Sound window clock := by
  induction hreaches with
  | start hclock => exact ⟨hclock, by simp, by simp⟩
  | wait _ hlater ih =>
    exact ⟨ih.start.trans hlater, fun hit hhit => ⟨(ih.hits hit hhit).1,
      (ih.hits hit hhit).2.trans hlater⟩, ih.expires⟩
  | @check clock attempts _ ih =>
    have halive : attempts.alive clock ⊆ attempts.hits := by
      unfold alive
      split <;> simp
    have hkept : ∀ hit ∈ insert clock ((attempts.alive clock).filter fun hit =>
        ¬ (0 ≤ hit ∧ hit ≤ clock - window)), 0 ≤ hit ∧ hit ≤ clock := by
      intro hit hhit
      rcases Finset.mem_insert.mp hhit with rfl | hold
      · exact ⟨ih.start, le_refl _⟩
      · exact ih.hits hit (halive (Finset.mem_of_mem_filter hit hold))
    unfold Attempts.check
    dsimp only
    split
    · exact ⟨ih.start, by simp, by simp⟩
    · refine ⟨ih.start, hkept, fun hit hhit ends hends => ?_⟩
      cases hends
      linarith [(hkept hit hhit).2]

theorem Sound.filter_alive (hsound : attempts.Sound window clock) {keep : Time → Prop}
    [DecidablePred keep] (hkeep : ∀ hit ∈ attempts.hits, keep hit → now - window ≤ hit) :
    (attempts.alive now).filter keep = attempts.hits.filter keep := by
  unfold alive
  split
  next hgone =>
    rw [Option.any_eq_true] at hgone
    obtain ⟨ends, hends, hpassed⟩ := hgone
    have hwindow : (0 : ℚ) ≤ window := Nat.cast_nonneg window
    rw [Finset.filter_empty, eq_comm, Finset.filter_eq_empty_iff]
    intro hit hhit hkept
    have hlast := hsound.expires hit hhit ends hends
    have hinside := hkeep hit hhit hkept
    have hpassed := of_decide_eq_true hpassed
    linarith
  next => rfl

theorem Sound.allows_iff (hsound : attempts.Sound window clock) :
    attempts.Allows limit window now ↔
      ((attempts.hits.filter fun hit => now - window < hit ∧ hit ≠ now).card : Int) < limit := by
  have hkept : (attempts.alive now).filter (fun hit => ¬ (0 ≤ hit ∧ hit ≤ now - window)) =
      (attempts.alive now).filter fun hit => now - window < hit := by
    refine Finset.filter_congr fun hit hhit => ?_
    have hpast : 0 ≤ hit := by
      unfold alive at hhit
      split at hhit
      · cases Finset.notMem_empty _ hhit
      · exact (hsound.hits hit hhit).1
    simp [hpast]
  have hhits : insert now ((attempts.alive now).filter fun hit => now - window < hit) =
      insert now (attempts.hits.filter fun hit => now - window < hit ∧ hit ≠ now) := by
    rw [hsound.filter_alive fun _ _ hlater => le_of_lt hlater]
    ext hit
    by_cases heq : hit = now <;> simp [heq]
  have hfresh : now ∉ attempts.hits.filter fun hit => now - window < hit ∧ hit ≠ now := by simp
  unfold Allows Attempts.check
  simp only [hkept, hhits, Finset.card_insert_of_notMem hfresh, decide_eq_true_eq]
  omega

theorem truncate_of_nonneg {value : ℚ} (hvalue : 0 ≤ value) : truncate value = ⌊value⌋ :=
  if_pos hvalue

/-- After the wait that the oldest hit of the window names, an attempt is let through when fewer
hits than the limit come later. -/
theorem Sound.allows_later_iff (hsound : attempts.Sound window clock) (hnow : clock ≤ now)
    {wait : Int} (hwait : 0 < wait) :
    attempts.Allows limit window (now + wait) ↔
      ((attempts.hits.filter fun hit => now - window + wait < hit).card : Int) < limit := by
  have hpositive : (0 : ℚ) < wait := Int.cast_pos.mpr hwait
  have hsame : (attempts.hits.filter fun hit => now + wait - window < hit ∧ hit ≠ now + wait) =
      attempts.hits.filter fun hit => now - window + wait < hit := by
    refine Finset.filter_congr fun hit hhit => ?_
    have hpast := (hsound.hits hit hhit).2
    constructor
    · rintro ⟨hlater, _⟩
      linarith
    · intro hlater
      refine ⟨by linarith, fun heq => ?_⟩
      linarith
  rw [hsound.allows_iff, hsame]

/-- The view agrees with the check exactly when the condition holds. -/
theorem agrees_iff (hreaches : Reaches limit window clock attempts) (hnow : clock ≤ now) :
    attempts.Agrees limit window now ↔ attempts.Foreseen limit window now := by
  have hsound := hreaches.sound
  have hseen : (attempts.alive now).filter (fun hit => now - window ≤ hit) =
      attempts.hits.filter fun hit => now - window ≤ hit :=
    hsound.filter_alive fun _ _ hkept => hkept
  unfold Agrees Foreseen read
  simp only [hseen]
  by_cases hfull : limit ≤ (attempts.hits.filter fun hit => now - window ≤ hit).card
  · simp only [hfull, if_true, forall_const]
    by_cases hsome : (attempts.hits.filter fun hit => now - window ≤ hit).Nonempty
    · have hmin := Finset.mem_filter.mp (Finset.min'_mem _ hsome)
      set oldest := (attempts.hits.filter fun hit => now - window ≤ hit).min' hsome with holdest
      have hleast : ∀ hit ∈ attempts.hits, now - window ≤ hit → oldest ≤ hit :=
        fun hit hhit hinside => Finset.min'_le _ hit (Finset.mem_filter.mpr ⟨hhit, hinside⟩)
      have hage : oldest + window - now = oldest - (now - window) := by ring
      have hfloor : 0 ≤ ⌊oldest - (now - window)⌋ := Int.floor_nonneg.mpr (by linarith [hmin.2])
      have hwait : max 1 (truncate (oldest + window - now) + 1) =
          ⌊oldest - (now - window)⌋ + 1 := by
        rw [hage, truncate_of_nonneg (by linarith [hmin.2]), max_eq_right (by omega)]
      have hpositive : 0 < ⌊oldest - (now - window)⌋ + 1 := by omega
      rw [dif_pos hsome, ← holdest, hwait]
      rw [hsound.allows_later_iff hnow hpositive, hsound.allows_iff]
      have hne : ⌊oldest - (now - window)⌋ + 1 ≠ 0 := by omega
      simp only [hne, false_iff, not_lt, ne_eq, not_false_eq_true, forall_const]
      refine and_congr Iff.rfl ⟨fun hlater => ⟨oldest, hmin.1, hmin.2, hleast, ?_⟩, ?_⟩
      · simpa using hlater
      · rintro ⟨other, hother, hinside, hfirst, hlater⟩
        have heq : other = oldest :=
          le_antisymm (hfirst oldest hmin.1 hmin.2) (hleast other hother hinside)
        rw [heq] at hlater
        simpa using hlater
    · -- no hit in a full window: the limit lets nobody through
      have hlimit : limit ≤ 0 := by
        rw [Finset.not_nonempty_iff_eq_empty.mp hsome] at hfull
        simpa using hfull
      have hpositive : (0 : Int) < max 1 (window : Int) := by omega
      simp only [hsome, dif_neg, not_false_eq_true]
      refine iff_of_false ?_ ?_
      · rintro ⟨_, hlater⟩
        have hcount := (hsound.allows_later_iff hnow hpositive).mp (hlater hpositive.ne')
        omega
      · rintro ⟨_, _, _, _, _, hcount⟩
        omega
  · simp only [hfull, if_false, not_true, false_implies, iff_true, ne_eq, true_iff, and_true]
    rw [hsound.allows_iff]
    refine lt_of_le_of_lt ?_ (not_le.mp hfull)
    exact_mod_cast Finset.card_le_card fun hit hhit => by
      obtain ⟨hmem, hlater, _⟩ := Finset.mem_filter.mp hhit
      exact Finset.mem_filter.mpr ⟨hmem, le_of_lt hlater⟩

/-- One attempt, and another that is refused ten seconds later. -/
def refusedOnce : Attempts := (((⟨∅, none⟩ : Attempts).check 1 60 0).1.check 1 60 10).1

theorem refusedOnce_reaches : Reaches 1 60 10 refusedOnce :=
  .check (.wait (.check (.start le_rfl)) (by norm_num))

/-- The first attempt leaves the window after the wait; the refused one is still in it. -/
theorem refusedOnce_not_agrees :
    Reaches 1 60 10 refusedOnce ∧ ¬ refusedOnce.Agrees 1 60 20 := by
  refine ⟨refusedOnce_reaches, fun hagrees => ?_⟩
  have hwait : (refusedOnce.read (some 1) (some 60) 20).retryAfterSeconds = 41 := by
    decide +kernel
  have hrefused : (refusedOnce.check 1 60 61).2.2 = false := by decide +kernel
  have hallows := hagrees.2
  simp only [hwait] at hallows
  have hlater := hallows (by norm_num)
  norm_num [Allows, hrefused] at hlater

theorem refusedOnce_agrees_iff :
    Reaches 1 60 10 refusedOnce ∧ (10 : Time) ≤ 20 ∧
      (refusedOnce.Agrees 1 60 20 ↔ refusedOnce.Foreseen 1 60 20) :=
  ⟨refusedOnce_reaches, by norm_num, agrees_iff refusedOnce_reaches (by norm_num)⟩

end Attempts

end DjangoMojo.Limits
