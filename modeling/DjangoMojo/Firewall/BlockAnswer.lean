import DjangoMojo.Firewall.BlocksKept

/-! # What a call of block answers

The answer is decided by the instance, which may be stale, by the end of a block that is already
in force, and by the conditional update.
-/

namespace DjangoMojo.Firewall

namespace GeoLocatedIP

/-- The end that `block` computes; without a `ttl` the block is permanent. -/
def blockEnd (now : Time) (ttl : Nat) : Option Time := if ttl = 0 then none else some (now + ttl)

/-- `block` on an instance, run to its end: the stored row and the answer. -/
def block (row geo : GeoLocatedIP) (now : Time) (ttl : Nat) : GeoLocatedIP × Bool :=
  if geo.whitelistActive now then (row, false)
  else if geo.isBlocked && geo.blockActive now then (row, true)
  else
    let update : BlockUpdate := ⟨now, blockEnd now ttl, blockLevel geo.threatLevel⟩
    -- an update that matches nothing counts as a block by somebody else
    (if update.Matches row then update.apply row else row, true)

/-- The answer `True` stands for a block until the end that was asked for, and `False` for an
active whitelist. -/
def Grants (row geo : GeoLocatedIP) (now : Time) (ttl : Nat) : Prop :=
  match block row geo now ttl with
  | (after, true) => after.Covers (blockEnd now ttl) ∧ after.blockActive now = true
  | (after, false) => after = row ∧ row.whitelistActive now = true

/-- The answer `True` stands for a block until the end that was asked for or for one that was in
force before, and `False` for an active whitelist. -/
def GrantsOrHolds (row geo : GeoLocatedIP) (now : Time) (ttl : Nat) : Prop :=
  match block row geo now ttl with
  | (after, true) =>
    after.blockActive now = true ∧
      (after.Covers (blockEnd now ttl) ∨ after = row ∧ row.blockActive now = true)
  | (after, false) => after = row ∧ row.whitelistActive now = true

variable {row geo : GeoLocatedIP} {now : Time} {ttl : Nat}

theorem blockEnd_any (now : Time) (ttl : Nat) :
    ((blockEnd now ttl).any fun ends => ends < now) = false := by
  unfold blockEnd
  split
  · rfl
  · rw [Option.any_some, decide_eq_false_iff_not]
    exact Int.not_lt.mpr (Int.le_add_of_nonneg_right (Int.natCast_nonneg ttl))

theorem blockActive_apply (hwhitelist : row.whitelistActive now = false)
    (level : Option ThreatLevel) :
    ((BlockUpdate.mk now (blockEnd now ttl) level).apply row).blockActive now = true := by
  have hkept : ((BlockUpdate.mk now (blockEnd now ttl) level).apply row).whitelistActive now =
      row.whitelistActive now := rfl
  rw [blockActive, hkept, hwhitelist]
  simp [BlockUpdate.apply, blockEnd_any]

theorem blockActive_of_not_matches (hwhitelist : row.whitelistActive now = false)
    {update : BlockUpdate} (hnow : update.now = now) (hmatches : ¬ update.Matches row = true) :
    row.blockActive now = true := by
  simp only [BlockUpdate.Matches, hnow, Bool.or_eq_true, Bool.not_eq_true', not_or,
    Bool.not_eq_false] at hmatches
  have hpending : (row.blockedUntil.any fun ends => ends < now) = false := by
    cases huntil : row.blockedUntil with
    | none => rfl
    | some ends =>
      rw [huntil, Option.any_some, decide_eq_true_eq] at hmatches
      rw [Option.any_some, decide_eq_false_iff_not]
      exact fun hpassed => hmatches.2 (Int.le_of_lt hpassed)
  rw [blockActive, hmatches.1, hwhitelist, hpending]
  rfl

/-- For an instance that shows no block and no whitelist but those of the row, and the whitelist
of the row, a block that is reported is in force. -/
theorem block_grantsOrHolds
    (hwhitelist : geo.whitelistActive now = row.whitelistActive now)
    (hblock : geo.blockActive now = true → row.blockActive now = true) :
    GrantsOrHolds row geo now ttl := by
  unfold GrantsOrHolds block
  by_cases hgeo : geo.whitelistActive now = true
  · rw [if_pos hgeo]
    exact ⟨rfl, hwhitelist ▸ hgeo⟩
  · have hrow : row.whitelistActive now = false := by
      rw [← hwhitelist]
      exact Bool.eq_false_iff.mpr hgeo
    rw [if_neg hgeo]
    by_cases hactive : (geo.isBlocked && geo.blockActive now) = true
    · rw [if_pos hactive]
      have hkept := hblock (Bool.and_eq_true_iff.mp hactive).2
      exact ⟨hkept, .inr ⟨rfl, hkept⟩⟩
    · rw [if_neg hactive]
      dsimp only
      split
      next hmatches =>
        exact ⟨blockActive_apply hrow _, .inl ⟨rfl, later_refl _⟩⟩
      next hmatches =>
        have hkept := blockActive_of_not_matches hrow rfl hmatches
        exact ⟨hkept, .inr ⟨rfl, hkept⟩⟩

def briefBlock : GeoLocatedIP := ⟨some .high, true, some 60, false, none⟩

/-- A minute answers for ten. -/
theorem briefBlock_not_grants :
    ¬ ∀ (row geo : GeoLocatedIP) (now : Time) (ttl : Nat), Grants row geo now ttl := by
  intro hgrants
  have hbrief := hgrants briefBlock briefBlock 0 600
  have hcovers : (600 : Int) ≤ 60 := hbrief.1.2
  omega

theorem briefBlock_holds : GrantsOrHolds briefBlock briefBlock 0 600 :=
  block_grantsOrHolds rfl fun hactive => hactive

end GeoLocatedIP

end DjangoMojo.Firewall
