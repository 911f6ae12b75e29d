import Mathlib.Tactic.Linarith
import DjangoMojo.Foundation.Trace
import DjangoMojo.Limits.SlidingWindow

/-! # How many requests a window lets through

A check counts at least the hits of its own key that lie in its window, as long as none of them
has left the set and no two of them have one name. So the last check that counts bounds
the requests that were let through before it.
-/

namespace DjangoMojo.Limits

open Foundation

variable {limiter : Limiter}

/-- No window holds more requests of a key than its limit, and no check raises. -/
structure World.Limited (limiter : Limiter) (world : World) : Prop where
  bounded : ∀ key since, ∀ ids : Finset Nat,
    (∀ id ∈ ids, ∃ check, world.checks.get id = some check ∧ check.key = key ∧
      check.letThrough = true ∧ since < check.now ∧
      check.now ≤ since + (limiter.window key).value) →
    ids = ∅ ∨ (ids.card : ℚ) ≤ (limiter.limit key).value
  closed : ∀ id check, world.checks.get id = some check → check.phase ≠ .finished .raised

def Limiter.Usable (limiter : Limiter) (key : Nat) : Prop :=
  ∃ seconds, limiter.window key = .int seconds ∧ limiter.subtracts seconds = true ∧
    limiter.expires (seconds * 2) = true

/-- A hit is out of the windows of its own key: of the checks to come, and of those that have
not counted yet. -/
def World.Outdated (limiter : Limiter) (world : World) (check : Check) : Prop :=
  check.now ≤ world.clock - (limiter.window check.key).value ∧
    ∀ id other, world.checks.get id = some other → other.key = check.key →
      other.pending = true → check.now ≤ other.now - (limiter.window check.key).value

/-- A check that begins has a usable window and a time that no other check of its key has. A hit
that leaves the set, pruned by any check or with the whole key, is outdated. -/
def World.Orderly (limiter : Limiter) (world : World) (label : Label) (next : World) : Prop :=
  (match label with
    | .begin _ key => limiter.Usable key ∧
        ∀ id check, world.checks.get id = some check → check.key = key → check.now ≠ world.clock
    | _ => True) ∧
  ∀ id check, next.checks.get id = some check → check.added = true →
    check.now ∈ world.members → check.now ∉ next.members → next.Outdated limiter check

/-! ### The invariant -/

def Check.admitted (limiter : Limiter) (check : Check) : Prop :=
  match check.phase with
  | .expiring count => (count : ℚ) ≤ (limiter.limit check.key).value
  | .finished (.counted allowed) => allowed = true
  | _ => False

theorem Check.added_of_admitted {check : Check} (hadmitted : check.admitted limiter) :
    check.added = true := by
  unfold Check.admitted at hadmitted
  unfold Check.added
  split at hadmitted
  next hphase => rw [hphase]
  next hphase => rw [hphase]
  · exact hadmitted.elim

namespace World

structure Sound (limiter : Limiter) (world : World) : Prop where
  past : ∀ id check, world.checks.get id = some check → check.now ≤ world.clock
  usable : ∀ id check, world.checks.get id = some check → limiter.Usable check.key
  closed : ∀ id check, world.checks.get id = some check → check.phase ≠ .finished .raised
  apart : ∀ first second one other, world.checks.get first = some one →
    world.checks.get second = some other → first ≠ second → one.key = other.key →
    one.now ≠ other.now
  kept : ∀ id check, world.checks.get id = some check → check.added = true →
    check.now ∈ world.members ∨ world.Outdated limiter check
  bounded : ∀ key since, ∀ ids : Finset Nat,
    (∀ id ∈ ids, ∃ check, world.checks.get id = some check ∧ check.key = key ∧
      check.admitted limiter ∧ since < check.now ∧
      check.now ≤ since + (limiter.window key).value) →
    ids = ∅ ∨ (ids.card : ℚ) ≤ (limiter.limit key).value

theorem sound_start (limiter : Limiter) (clock : Time) : (start clock).Sound limiter where
  past _ _ hcheck := by cases hcheck
  usable _ _ hcheck := by cases hcheck
  closed _ _ hcheck := by cases hcheck
  apart _ _ _ _ hone := by cases hone
  kept _ _ hcheck := by cases hcheck
  bounded _ _ ids hids := by
    refine .inl (Finset.eq_empty_of_forall_notMem fun id hid => ?_)
    obtain ⟨_, hcheck, _⟩ := hids id hid
    cases hcheck

variable {world next : World}

theorem Sound.limited (hsound : world.Sound limiter) : world.Limited limiter where
  bounded key since ids hids := by
    refine hsound.bounded key since ids fun id hid => ?_
    obtain ⟨check, hcheck, hkey, hpassed, hwindow⟩ := hids id hid
    refine ⟨check, hcheck, hkey, ?_, hwindow⟩
    have hclosed := hsound.closed id check hcheck
    unfold Check.letThrough at hpassed
    unfold Check.admitted
    split at hpassed
    next hphase => rw [hphase]; exact hpassed
    next hphase => exact absurd hphase hclosed
    all_goals cases hpassed
  closed := hsound.closed

/-- The members bound the admitted requests of a window that holds a check which is counting. -/
theorem Sound.card_le (hsound : world.Sound limiter) {id : Nat} {check : Check}
    (hcheck : world.checks.get id = some check) (hphase : check.phase = .counting) {since : Time}
    {ids : Finset Nat}
    (huntil : check.now ≤ since + (limiter.window check.key).value)
    (hids : ∀ other ∈ ids, ∃ found, world.checks.get other = some found ∧
      found.key = check.key ∧ found.added = true ∧ since < found.now) :
    ids.card ≤ world.members.card := by
  classical
  have hpending : check.pending = true := by rw [Check.pending, hphase]
  let time : Nat → Time := fun other => ((world.checks.get other).map Check.now).getD 0
  refine Finset.card_le_card_of_injOn time ?_ ?_
  · intro other hother
    obtain ⟨found, hfound, hkey, hadded, hlater⟩ := hids other hother
    change time other ∈ world.members
    have htime : time other = found.now := by
      simp only [time, hfound, Option.map_some, Option.getD_some]
    rw [htime]
    rcases hsound.kept other found hfound hadded with hmem | houtdated
    · exact hmem
    · -- a hit in this window is not outdated for the check
      have hout := houtdated.2 id check hcheck hkey.symm hpending
      rw [hkey] at hout
      exfalso
      linarith
  · intro first hfirst second hsecond htimes
    obtain ⟨one, hone, hkeyOne, _⟩ := hids first hfirst
    obtain ⟨other, hother, hkeyOther, _⟩ := hids second hsecond
    by_contra hne
    refine hsound.apart first second one other hone hother hne (hkeyOne.trans hkeyOther.symm) ?_
    simpa only [time, hone, hother, Option.map_some, Option.getD_some] using htimes

/-- A hit stays outdated while the clock goes on, for old checks and for new ones. -/
theorem Outdated.later {check : Check} (houtdated : world.Outdated limiter check)
    (hclock : world.clock ≤ next.clock)
    (hchecks : ∀ id other, next.checks.get id = some other → other.pending = true →
      world.clock ≤ other.now ∨ ∃ earlier, world.checks.get id = some earlier ∧
        earlier.key = other.key ∧ earlier.now = other.now ∧ earlier.pending = true) :
    next.Outdated limiter check := by
  obtain ⟨hpast, hothers⟩ := houtdated
  refine ⟨by linarith, fun id other hother hkey hpending => ?_⟩
  rcases hchecks id other hother hpending with hnew | ⟨earlier, hearlier, hsame, hnow, hwaiting⟩
  · linarith
  · rw [← hnow]
    exact hothers id earlier hearlier (hsame.trans hkey) hwaiting

/-- The hits that were kept are kept, or leave the set outdated. -/
theorem Sound.kept_later (hsound : world.Sound limiter) (hclock : world.clock ≤ next.clock)
    (hchecks : ∀ id other, next.checks.get id = some other → other.pending = true →
      world.clock ≤ other.now ∨ ∃ earlier, world.checks.get id = some earlier ∧
        earlier.key = other.key ∧ earlier.now = other.now ∧ earlier.pending = true)
    {id : Nat} {check found : Check} (hcheck : world.checks.get id = some check)
    (hadded : check.added = true) (hkey : found.key = check.key) (hnow : found.now = check.now)
    (hleaves : check.now ∈ world.members → check.now ∉ next.members →
      next.Outdated limiter found) :
    found.now ∈ next.members ∨ next.Outdated limiter found := by
  rcases hsound.kept id check hcheck hadded with hmem | houtdated
  · by_cases hstays : check.now ∈ next.members
    · exact .inl (hnow ▸ hstays)
    · exact .inr (hleaves hmem hstays)
  · have hlater := houtdated.later hclock hchecks
    exact .inr (by rwa [Outdated, hkey, hnow])

theorem Sound.advanced (hsound : world.Sound limiter) {id : Nat} {check : Check} {phase : Phase}
    (hcheck : world.checks.get id = some check) (hclock : next.clock = world.clock)
    (hnext : next.checks = world.checks.put id { check with phase })
    (hclosed : phase ≠ .finished .raised)
    (hpending : Check.pending { check with phase } = true → check.pending = true)
    (hadded : Check.added { check with phase } = true →
      check.added = true ∨ check.now ∈ next.members)
    (hadmitted : Check.admitted limiter { check with phase } → check.admitted limiter ∨
      check.phase = .counting ∧ (world.members.card : ℚ) ≤ (limiter.limit check.key).value)
    (hleaves : ∀ other found, next.checks.get other = some found → found.added = true →
      found.now ∈ world.members → found.now ∉ next.members → next.Outdated limiter found) :
    next.Sound limiter := by
  have hget : ∀ other found, next.checks.get other = some found →
      other = id ∧ found = { check with phase } ∨
        other ≠ id ∧ world.checks.get other = some found := by
    intro other found hfound
    rw [hnext, Table.get_put] at hfound
    split at hfound
    next heq => exact .inl ⟨heq, (Option.some.inj hfound).symm⟩
    next hne => exact .inr ⟨hne, hfound⟩
  -- every check has the key and the time that it had before
  have hbefore : ∀ other found, next.checks.get other = some found →
      ∃ earlier, world.checks.get other = some earlier ∧ earlier.key = found.key ∧
        earlier.now = found.now := by
    intro other found hfound
    rcases hget other found hfound with ⟨rfl, rfl⟩ | ⟨-, hsame⟩
    · exact ⟨check, hcheck, rfl, rfl⟩
    · exact ⟨found, hsame, rfl, rfl⟩
  have hwaiting : ∀ other found, next.checks.get other = some found → found.pending = true →
      world.clock ≤ found.now ∨ ∃ earlier, world.checks.get other = some earlier ∧
        earlier.key = found.key ∧ earlier.now = found.now ∧ earlier.pending = true := by
    intro other found hfound hwaits
    rcases hget other found hfound with ⟨rfl, rfl⟩ | ⟨-, hsame⟩
    · exact .inr ⟨check, hcheck, rfl, rfl, hpending hwaits⟩
    · exact .inr ⟨found, hsame, rfl, rfl, hwaits⟩
  refine ⟨?_, ?_, ?_, ?_, ?_, ?_⟩
  · intro other found hfound
    obtain ⟨earlier, hearlier, -, hnow⟩ := hbefore other found hfound
    rw [hclock, ← hnow]
    exact hsound.past other earlier hearlier
  · intro other found hfound
    obtain ⟨earlier, hearlier, hkey, -⟩ := hbefore other found hfound
    rw [← hkey]
    exact hsound.usable other earlier hearlier
  · intro other found hfound
    rcases hget other found hfound with ⟨rfl, rfl⟩ | ⟨-, hsame⟩
    · exact hclosed
    · exact hsound.closed other found hsame
  · intro first second one other hone hother hne hkeys
    obtain ⟨oneBefore, honeBefore, hkeyOne, hnowOne⟩ := hbefore first one hone
    obtain ⟨otherBefore, hotherBefore, hkeyOther, hnowOther⟩ := hbefore second other hother
    rw [← hnowOne, ← hnowOther]
    exact hsound.apart first second oneBefore otherBefore honeBefore hotherBefore hne
      (by rw [hkeyOne, hkeyOther, hkeys])
  · intro other found hfound hhit
    have hout := hleaves other found hfound hhit
    rcases hget other found hfound with ⟨rfl, rfl⟩ | ⟨-, hsame⟩
    · rcases hadded hhit with hbefore | hmem
      · exact hsound.kept_later hclock.ge hwaiting hcheck hbefore rfl rfl hout
      · exact .inl hmem
    · exact hsound.kept_later hclock.ge hwaiting hsame hhit rfl rfl hout
  · intro key since ids hids
    by_cases hcounts : id ∈ ids ∧ check.phase = .counting ∧
        (world.members.card : ℚ) ≤ (limiter.limit check.key).value
    · -- the check that counts bounds them all
      obtain ⟨hmem, hphase, hle⟩ := hcounts
      obtain ⟨found, hfound, hkey, -, -, huntil⟩ := hids id hmem
      rcases hget id found hfound with ⟨-, rfl⟩ | ⟨hne, -⟩
      · change check.key = key at hkey
        subst hkey
        have hcard := @Sound.card_le limiter world hsound id check hcheck hphase since ids huntil
          fun other hother => by
          obtain ⟨found, hfound, hkey, hadmits, hlater, -⟩ := hids other hother
          rcases hget other found hfound with ⟨rfl, rfl⟩ | ⟨-, hsame⟩
          · exact ⟨check, hcheck, rfl, by rw [Check.added, hphase], hlater⟩
          · exact ⟨found, hsame, hkey, Check.added_of_admitted hadmits, hlater⟩
        exact .inr (le_trans (Nat.cast_le.mpr hcard) hle)
      · exact absurd rfl hne
    · refine hsound.bounded key since ids fun other hother => ?_
      obtain ⟨found, hfound, hkey, hadmits, hwindow⟩ := hids other hother
      rcases hget other found hfound with ⟨rfl, rfl⟩ | ⟨-, hsame⟩
      · rcases hadmitted hadmits with hbefore | hcounting
        · exact ⟨check, hcheck, hkey, hbefore, hwindow⟩
        · exact absurd ⟨hother, hcounting⟩ hcounts
      · exact ⟨found, hsame, hkey, hadmits, hwindow⟩

theorem Sound.begun (hsound : world.Sound limiter) {id key : Nat}
    (hid : world.checks.get id = none) (husable : limiter.Usable key)
    (htime : ∀ other check, world.checks.get other = some check → check.key = key →
      check.now ≠ world.clock) :
    (world.put id ⟨key, world.clock, .pruning⟩).Sound limiter := by
  have hget : ∀ other found, (world.put id ⟨key, world.clock, .pruning⟩).checks.get other =
      some found → other = id ∧ found = ⟨key, world.clock, .pruning⟩ ∨
        world.checks.get other = some found := by
    intro other found hfound
    rw [put, Table.get_put] at hfound
    split at hfound
    next heq => exact .inl ⟨heq, (Option.some.inj hfound).symm⟩
    · exact .inr hfound
  have hwaiting : ∀ other found, (world.put id ⟨key, world.clock, .pruning⟩).checks.get other =
      some found → found.pending = true → world.clock ≤ found.now ∨
        ∃ earlier, world.checks.get other = some earlier ∧ earlier.key = found.key ∧
          earlier.now = found.now ∧ earlier.pending = true := by
    intro other found hfound hpending
    rcases hget other found hfound with ⟨-, rfl⟩ | hsame
    · exact .inl (le_refl _)
    · exact .inr ⟨found, hsame, rfl, rfl, hpending⟩
  refine ⟨?_, ?_, ?_, ?_, ?_, ?_⟩
  · intro other found hfound
    rcases hget other found hfound with ⟨-, rfl⟩ | hsame
    · exact le_refl _
    · exact hsound.past other found hsame
  · intro other found hfound
    rcases hget other found hfound with ⟨-, rfl⟩ | hsame
    · exact husable
    · exact hsound.usable other found hsame
  · intro other found hfound
    rcases hget other found hfound with ⟨-, rfl⟩ | hsame
    · exact nofun
    · exact hsound.closed other found hsame
  · intro first second one other hone hother hne hkeys
    rcases hget first one hone with ⟨rfl, rfl⟩ | hfirst
    · rcases hget second other hother with ⟨rfl, -⟩ | hsecond
      · exact absurd rfl hne
      · exact (htime second other hsecond hkeys.symm).symm
    · rcases hget second other hother with ⟨-, rfl⟩ | hsecond
      · exact htime first one hfirst hkeys
      · exact hsound.apart first second one other hfirst hsecond hne hkeys
  · intro other found hfound hadded
    rcases hget other found hfound with ⟨-, rfl⟩ | hsame
    · cases hadded
    · exact @Sound.kept_later limiter world (world.put id ⟨key, world.clock, .pruning⟩) hsound
        (le_refl _) hwaiting other found found hsame hadded rfl rfl
        fun hmem hleft => absurd hmem hleft
  · intro other since ids hids
    refine hsound.bounded other since ids fun member hmember => ?_
    obtain ⟨found, hfound, hkey, hadmits, hwindow⟩ := hids member hmember
    rcases hget member found hfound with ⟨-, rfl⟩ | hsame
    · exact hadmits.elim
    · exact ⟨found, hsame, hkey, hadmits, hwindow⟩

theorem Sound.ticked (hsound : world.Sound limiter) (hclock : world.clock ≤ next.clock)
    (hchecks : next.checks = world.checks)
    (hleaves : ∀ id check, next.checks.get id = some check → check.added = true →
      check.now ∈ world.members → check.now ∉ next.members → next.Outdated limiter check) :
    next.Sound limiter where
  past id check hcheck := le_trans (hsound.past id check (hchecks ▸ hcheck)) hclock
  usable id check hcheck := hsound.usable id check (hchecks ▸ hcheck)
  closed id check hcheck := hsound.closed id check (hchecks ▸ hcheck)
  apart first second one other hone hother :=
    hsound.apart first second one other (hchecks ▸ hone) (hchecks ▸ hother)
  kept id check hcheck hadded := by
    refine hsound.kept_later hclock ?_ (hchecks ▸ hcheck) hadded rfl rfl
      (hleaves id check hcheck hadded)
    intro other found hfound hpending
    exact .inr ⟨found, hchecks ▸ hfound, rfl, rfl, hpending⟩
  bounded := by
    rw [hchecks]
    exact hsound.bounded

theorem expire_clock (world : World) (seconds : Int) :
    (world.expire seconds).clock = world.clock := by
  unfold expire
  split
  · rfl
  split
  · rfl
  · rfl

theorem expire_members (world : World) {seconds : Int} (hseconds : 0 < seconds) :
    (world.expire seconds).members = world.members := by
  unfold expire
  rw [if_neg (Int.not_le.mpr hseconds)]
  split
  · rfl
  · rfl

theorem expire_checks (world : World) (seconds : Int) :
    (world.expire seconds).checks = world.checks := by
  unfold expire
  split
  · rfl
  split
  · rfl
  · rfl

theorem sound_step {label : Label} (hsound : world.Sound limiter)
    (horderly : world.Orderly limiter label next) (hnext : world.step limiter label = some next) :
    next.Sound limiter := by
  obtain ⟨hlabel, hleaves⟩ := horderly
  cases label with
  | tick seconds =>
    simp only [step] at hnext
    split at hnext
    next hnonneg =>
      cases hnext
      refine hsound.ticked ?_ ?_ hleaves
      · split
        · exact le_add_of_nonneg_right hnonneg
        · exact le_add_of_nonneg_right hnonneg
      · split
        · rfl
        · rfl
    · cases hnext
  | begin id key =>
    simp only [step] at hnext
    split at hnext
    · cases hnext
    next hid =>
      obtain ⟨seconds, hwindow, hsubtracts, -⟩ := hlabel.1
      rw [hwindow] at hnext
      dsimp only at hnext
      rw [if_pos hsubtracts] at hnext
      cases hnext
      exact hsound.begun hid hlabel.1 hlabel.2
  | advance id =>
    simp only [step] at hnext
    split at hnext
    · cases hnext
    next check hcheck =>
      cases hphase : check.phase with
      | pruning =>
        rw [hphase] at hnext
        cases hnext
        refine hsound.advanced hcheck rfl rfl nofun ?_ nofun (fun hadmits => hadmits.elim)
          hleaves
        intro _
        rw [Check.pending, hphase]
      | adding =>
        rw [hphase] at hnext
        cases hnext
        refine hsound.advanced hcheck rfl rfl nofun ?_ ?_ (fun hadmits => hadmits.elim) hleaves
        · intro _
          rw [Check.pending, hphase]
        · intro _
          exact .inr (Finset.mem_insert_self _ _)
      | counting =>
        rw [hphase] at hnext
        cases hnext
        refine hsound.advanced hcheck rfl rfl nofun nofun ?_ ?_ hleaves
        · intro _
          rw [Check.added, hphase]
          exact .inl rfl
        · intro hle
          exact .inr ⟨hphase, hle⟩
      | expiring count =>
        rw [hphase] at hnext
        obtain ⟨seconds, hwindow, -, hexpires⟩ := hsound.usable id check hcheck
        dsimp only at hnext
        rw [hwindow] at hnext
        dsimp only at hnext
        rw [if_pos hexpires] at hnext
        cases hnext
        refine @Sound.advanced limiter world _ hsound id check (.finished (.counted _)) hcheck
          (expire_clock _ _) (expire_checks _ _) nofun nofun ?_ ?_ hleaves
        · intro _
          rw [Check.added, hphase]
          exact .inl rfl
        · intro hadmits
          refine .inl ?_
          rw [Check.admitted, hphase]
          exact of_decide_eq_true hadmits
      | finished verdict =>
        rw [hphase] at hnext
        cases hnext

end World

open World in
/-- In an orderly run no window holds more requests of a key than its limit, and no check lets a
request through because it failed. -/
theorem limited_of_orderly (limiter : Limiter) (clock : Time) (labels : List Label)
    (horderly : EachStep (step limiter) (fun world label next => world.Orderly limiter label next)
      (start clock) labels) :
    Always (step limiter) (fun world => world.Limited limiter) (start clock) labels := by
  have hsound : Always (step limiter) (fun world => world.Sound limiter) (start clock) labels := by
    refine always_of_eachStep ?_ (sound_start limiter clock) horderly
    intro world label next hsound horderly hnext
    exact sound_step hsound horderly hnext
  exact hsound.imp fun world hworld => hworld.limited

/-! ### One request a minute -/

namespace Sample

def oneAMinute : Limiter where
  apikeyLimit := 1
  apikeyWindow := 60
  override key := if key = 2 then some ⟨none, some (.float (1 / 2))⟩ else none
  subtracts _ := true
  expires _ := true

theorem usable_first : oneAMinute.Usable 1 := ⟨60, rfl, rfl, rfl⟩

def oneRequest : List Label := [.begin 1 1, .advance 1, .advance 1, .advance 1, .advance 1]

theorem limited_oneRequest :
    Always (World.step oneAMinute) (fun world => world.Limited oneAMinute) (World.start 1000)
      oneRequest := by
  refine limited_of_orderly oneAMinute 1000 oneRequest ?_
  rintro _ ⟨⟩
  refine ⟨⟨⟨usable_first, fun _ _ hcheck => nomatch hcheck⟩, fun _ _ _ _ hmem => ?_⟩, ?_⟩
  · exact absurd hmem (Finset.notMem_empty _)
  rintro _ ⟨⟩
  refine ⟨⟨trivial, fun _ _ _ _ hmem => absurd hmem (Finset.notMem_empty _)⟩, ?_⟩
  rintro _ ⟨⟩
  refine ⟨⟨trivial, fun _ _ _ _ hmem => absurd hmem (Finset.notMem_empty _)⟩, ?_⟩
  rintro _ ⟨⟩
  refine ⟨⟨trivial, fun _ _ _ _ hmem hleft => absurd hmem hleft⟩, ?_⟩
  rintro _ ⟨⟩
  refine ⟨⟨trivial, fun _ _ _ _ hmem hleft => ?_⟩, trivial⟩
  rw [World.expire_members _ (by decide)] at hleft
  exact absurd hmem hleft

/-- Two requests of the first key at one time, and two of the second. -/
def twoRequests (key : Nat) : List Label :=
  [.begin 1 key, .begin 2 key, .advance 1, .advance 1, .advance 1, .advance 1,
    .advance 2, .advance 2, .advance 2, .advance 2]

def passed (verdict : Verdict) (world : World) (id key : Nat) : Bool :=
  (world.checks.get id).any fun check => check.key = key ∧ check.now = 1000 ∧
    check.phase = .finished verdict

/-- Both requests of one time are one member, and both are let through; and a window of half
a minute is no number of seconds for `EXPIRE`, so that no check of the second key counts. -/
theorem not_limited_twoRequests :
    (∃ world, run (World.step oneAMinute) (World.start 1000) (twoRequests 1) = some world ∧
      (passed (.counted true) world 1 1 && passed (.counted true) world 2 1) = true ∧
      ¬ world.Limited oneAMinute) ∧
    (∃ world, run (World.step oneAMinute) (World.start 1000) (twoRequests 2) = some world ∧
      (passed .raised world 1 2 && passed .raised world 2 2) = true) := by
  have hone : (run (World.step oneAMinute) (World.start 1000) (twoRequests 1)).any (fun world =>
      passed (.counted true) world 1 1 && passed (.counted true) world 2 1) = true := by
    decide +kernel
  have htwo : (run (World.step oneAMinute) (World.start 1000) (twoRequests 2)).any (fun world =>
      passed .raised world 1 2 && passed .raised world 2 2) = true := by
    decide +kernel
  rw [Option.any_eq_true] at hone htwo
  obtain ⟨world, hrun, hpassed⟩ := hone
  refine ⟨⟨world, hrun, hpassed, fun hlimited => ?_⟩, htwo⟩
  have hmember : ∀ id, passed (.counted true) world id 1 = true →
      ∃ check, world.checks.get id = some check ∧ check.key = 1 ∧ check.letThrough = true ∧
        (940 : ℚ) < check.now ∧ check.now ≤ 940 + (oneAMinute.window 1).value := by
    intro id hid
    rw [passed, Option.any_eq_true] at hid
    obtain ⟨check, hcheck, hproperties⟩ := hid
    obtain ⟨hkey, hnow, hphase⟩ := of_decide_eq_true hproperties
    refine ⟨check, hcheck, hkey, by rw [Check.letThrough, hphase], ?_, ?_⟩
    · rw [hnow]
      norm_num
    · rw [hnow]
      change (1000 : ℚ) ≤ 940 + ((60 : Int) : ℚ)
      norm_num
  obtain ⟨hfirst, hsecond⟩ := Bool.and_eq_true_iff.mp hpassed
  have hbound := hlimited.bounded 1 940 {1, 2} fun id hid => by
    rcases Finset.mem_insert.mp hid with rfl | hid
    · exact hmember 1 hfirst
    · rw [Finset.mem_singleton.mp hid]
      exact hmember 2 hsecond
  rcases hbound with hempty | hle
  · exact absurd hempty (by decide)
  · change ((({1, 2} : Finset Nat).card : Nat) : ℚ) ≤ ((1 : Int) : ℚ) at hle
    have hcard : ({1, 2} : Finset Nat).card = 2 := by decide
    rw [hcard] at hle
    norm_num at hle

end Sample

end DjangoMojo.Limits
