import DjangoMojo.Cases.Promotion

/-! # The ratchet of a case

What a case promises is about a few of its columns and about the log: the urgency rises, the
projections follow it upwards, and corroboration promotes once. The columns move as a small
machine of their own, which every transaction follows as long as no case is lowered.
-/

namespace DjangoMojo.Cases

open Foundation

/-! ### The machine -/

structure Standing where
  urgency : Urgency
  reason : Reason
  projected : Option Urgency

/-- A case as the ratchet sees it: its standing, once it exists, the urgencies of its Events
and the number of its promotions by corroboration. -/
structure Record where
  standing : Option Standing
  projections : List Urgency
  corroborations : Nat

/-- A standing rises: the projection stays, and a critical case stays as it is. -/
structure Standing.Climbs (before after : Standing) : Prop where
  projected : after.projected = before.projected
  rank : before.urgency.rank ≤ after.urgency.rank
  critical : before.urgency = .critical → after = before

inductive Record.Move : Record → Record → Prop where
  | same (record : Record) : Move record record
  | opened {projections : List Urgency} {count : Nat} (urgency : Urgency) (reason : Reason) :
      Move ⟨none, projections, count⟩ ⟨some ⟨urgency, reason, none⟩, projections, count⟩
  | climbed {projections : List Urgency} {count : Nat} {before after : Standing}
      (hclimbs : before.Climbs after) :
      Move ⟨some before, projections, count⟩ ⟨some after, projections, count⟩
  | corroborated {projections : List Urgency} {count : Nat} {before : Standing}
      (hreason : before.reason ≠ .corroboratedCompromise) :
      Move ⟨some before, projections, count⟩
        ⟨some ⟨.critical, .corroboratedCompromise, before.projected⟩, projections, count + 1⟩
  | projected {projections : List Urgency} {count : Nat} {before : Standing}
      (hrank : projectedRank before.projected < before.urgency.rank) :
      Move ⟨some before, projections, count⟩
        ⟨some { before with projected := some before.urgency },
          projections ++ [before.urgency], count⟩

/-- The projection stays below the urgency, the Events rise up to the projection, and a case
that was corroborated is critical for that reason. -/
structure Standing.Sound (standing : Standing) (projections : List Urgency) (count : Nat) :
    Prop where
  projected_le : projectedRank standing.projected ≤ standing.urgency.rank
  increase : projections.Pairwise fun first second => first.rank < second.rank
  projections_le : ∀ urgency ∈ projections, urgency.rank ≤ projectedRank standing.projected
  once : count ≤ 1
  critical : 0 < count →
    standing.urgency = .critical ∧ standing.reason = .corroboratedCompromise

def Record.Sound (record : Record) : Prop :=
  match record.standing with
  | none => record.projections = [] ∧ record.corroborations = 0
  | some standing => standing.Sound record.projections record.corroborations

namespace Record.Sound

variable {record : Record}

theorem increase (hsound : record.Sound) :
    record.projections.Pairwise fun first second => first.rank < second.rank := by
  obtain ⟨standing, projections, count⟩ := record
  cases standing with
  | none =>
    have hnone : projections = [] := hsound.1
    rw [hnone]
    exact .nil
  | some standing => exact Standing.Sound.increase hsound

theorem once (hsound : record.Sound) : record.corroborations ≤ 1 := by
  obtain ⟨standing, projections, count⟩ := record
  cases standing with
  | none =>
    have hnone : count = 0 := hsound.2
    rw [hnone]
    exact Nat.zero_le 1
  | some standing => exact Standing.Sound.once hsound

end Record.Sound

/-- A case that exists goes on to exist, at no lower urgency. -/
def Record.Rises (before after : Record) : Prop :=
  ∀ standing, before.standing = some standing →
    ∃ next, after.standing = some next ∧ standing.urgency.rank ≤ next.urgency.rank

namespace Record.Move

variable {before after : Record}

theorem rises (hmove : Move before after) : before.Rises after := by
  intro standing hstanding
  cases hmove with
  | same => exact ⟨standing, hstanding, le_rfl⟩
  | opened => cases hstanding
  | climbed hclimbs =>
    cases hstanding
    exact ⟨_, rfl, hclimbs.rank⟩
  | corroborated =>
    cases hstanding
    exact ⟨_, rfl, standing.urgency.rank_le_critical⟩
  | projected =>
    cases hstanding
    exact ⟨_, rfl, le_rfl⟩

theorem sound (hmove : Move before after) (hsound : before.Sound) : after.Sound := by
  cases hmove with
  | same => exact hsound
  | opened urgency reason =>
    obtain ⟨hprojections, hcount⟩ := hsound
    dsimp only at hprojections hcount
    subst hprojections hcount
    refine ⟨?_, .nil, by simp, Nat.zero_le 1, fun hpos => absurd hpos (Nat.lt_irrefl 0)⟩
    change -1 ≤ urgency.rank
    have hrank := urgency.rank_nonneg
    omega
  | @climbed projections count standing next hclimbs =>
    have hbefore : standing.Sound projections count := hsound
    refine ⟨?_, hbefore.increase, ?_, hbefore.once, fun hpos => ?_⟩
    · rw [hclimbs.projected]
      exact hbefore.projected_le.trans hclimbs.rank
    · change ∀ urgency ∈ projections, urgency.rank ≤ projectedRank next.projected
      rw [hclimbs.projected]
      exact hbefore.projections_le
    · have hcritical := hbefore.critical hpos
      rwa [hclimbs.critical hcritical.1]
  | @corroborated projections count standing hreason =>
    have hbefore : standing.Sound projections count := hsound
    -- a second corroboration would find the reason of the first
    have hfirst : count = 0 := by
      by_contra hcount
      exact hreason (hbefore.critical (Nat.pos_of_ne_zero hcount)).2
    subst hfirst
    exact ⟨hbefore.projected_le.trans standing.urgency.rank_le_critical, hbefore.increase,
      hbefore.projections_le, le_rfl, fun _ => ⟨rfl, rfl⟩⟩
  | @projected projections count standing hrank =>
    have hbefore : standing.Sound projections count := hsound
    refine ⟨le_rfl, ?_, ?_, hbefore.once, hbefore.critical⟩
    · refine List.pairwise_append.mpr ⟨hbefore.increase, List.pairwise_singleton _ _, ?_⟩
      intro first hfirst second hsecond
      rw [List.mem_singleton.mp hsecond]
      exact (hbefore.projections_le first hfirst).trans_lt hrank
    · intro urgency hurgency
      rcases List.mem_append.mp hurgency with hold | hnew
      · exact ((hbefore.projections_le urgency hold).trans_lt hrank).le
      · rw [List.mem_singleton.mp hnew]
        exact le_rfl

end Record.Move

namespace Standing.Climbs

variable {first second third : Standing}

theorem refl (standing : Standing) : standing.Climbs standing := ⟨rfl, le_rfl, fun _ => rfl⟩

theorem trans (hfirst : first.Climbs second) (hsecond : second.Climbs third) :
    first.Climbs third where
  projected := hsecond.projected.trans hfirst.projected
  rank := hfirst.rank.trans hsecond.rank
  critical := by
    intro hcritical
    have heq := hfirst.critical hcritical
    rw [hsecond.critical (heq ▸ hcritical), heq]

end Standing.Climbs

/-! ### What a contribution does to the standing -/

namespace CaseRow

def standing (row : CaseRow) : Standing := ⟨row.urgency, row.urgencyReason, row.projectedUrgency⟩

variable {input : CaseInput} (row : CaseRow)

theorem standing_noteSource (source : Option String) :
    (row.noteSource source).standing = row.standing := by
  unfold noteSource
  split
  · rfl
  · split <;> rfl

theorem occurrenceCount_noteSource (source : Option String) :
    (row.noteSource source).occurrenceCount = row.occurrenceCount := by
  unfold noteSource
  split
  · rfl
  · split <;> rfl

theorem standing_noteDeployment : (row.noteDeployment input).standing = row.standing := by
  unfold noteDeployment
  split
  · dsimp only
    split <;> rfl
  · rfl

theorem occurrenceCount_noteDeployment :
    (row.noteDeployment input).occurrenceCount = row.occurrenceCount := by
  unfold noteDeployment
  split
  · dsimp only
    split <;> rfl
  · rfl

theorem standing_noteEvidence (events : Nat) (isDistinct : Bool) :
    (row.noteEvidence input events isDistinct).standing = row.standing := by
  unfold noteEvidence
  rw [standing_noteDeployment]
  cases input.breakdown with
  | none => exact standing_noteSource _ _
  | some info =>
    change (noteSource _ _).standing = _
    exact standing_noteSource _ _

theorem occurrenceCount_noteEvidence (events : Nat) (isDistinct : Bool) :
    (row.noteEvidence input events isDistinct).occurrenceCount =
      row.occurrenceCount + input.occurrences := by
  unfold noteEvidence
  rw [occurrenceCount_noteDeployment]
  cases input.breakdown with
  | none => exact occurrenceCount_noteSource _ _
  | some info =>
    change (noteSource _ _).occurrenceCount = _
    exact occurrenceCount_noteSource _ _

theorem standing_elevatePromoted : row.elevatePromoted.standing = row.standing := by
  unfold elevatePromoted
  split <;> rfl

theorem promote_climbs (urgency : Urgency) (reason : Reason) :
    row.standing.Climbs (row.promote urgency reason).standing := by
  unfold promote
  split
  next hrank =>
    refine ⟨rfl, hrank.le, fun hcritical => ?_⟩
    change row.urgency = .critical at hcritical
    rw [hcritical] at hrank
    exact absurd hrank urgency.rank_le_critical.not_gt
  · exact .refl _

theorem raiseUrgency_eq : row.raiseUrgency input = row.promote input.urgency input.urgencyReason :=
  rfl

theorem occurrenceCount_raiseUrgency :
    (row.raiseUrgency input).occurrenceCount = row.occurrenceCount := by
  unfold raiseUrgency
  split <;> rfl

theorem critical_of_raiseUrgency (hinput : input.urgency ≠ .critical)
    (hcritical : (row.raiseUrgency input).urgency = .critical) : row.urgency = .critical := by
  unfold raiseUrgency at hcritical
  split at hcritical
  · exact absurd hcritical hinput
  · exact hcritical

/-- The sustained branch of `elevate`. -/
def isSustained (input : CaseInput) (row : CaseRow) : Prop :=
  1000 ≤ row.occurrenceCount ∧ input.urgency = .warning

theorem elevate_sustained (hsustained : row.isSustained input) :
    (row.elevate input).standing =
      ⟨.high, .sustainedTrustedImpossiblePaths, row.projectedUrgency⟩ := by
  obtain ⟨hcount, hwarning⟩ := hsustained
  unfold elevate
  rw [if_neg (by simp [hwarning, Urgency.isPromoted]), if_pos (by simp [hcount, hwarning])]
  rfl

theorem elevate_standing (hsustained : ¬ row.isSustained input) :
    (row.elevate input).standing = row.standing := by
  unfold elevate
  split
  · rfl
  · rw [if_neg]
    rw [Bool.and_eq_true, decide_eq_true_iff, decide_eq_true_iff]
    exact hsustained

/-- The assignment without a comparison keeps the ratchet where the case is not critical. -/
theorem elevate_climbs (hspared : row.urgency = .critical → ¬ row.isSustained input) :
    row.standing.Climbs (row.elevate input).standing := by
  by_cases hsustained : row.isSustained input
  · have hcritical : row.urgency ≠ .critical := fun heq => hspared heq hsustained
    rw [elevate_sustained row hsustained]
    refine ⟨rfl, ?_, fun heq => absurd heq hcritical⟩
    change row.urgency.rank ≤ Urgency.high.rank
    cases hurgency : row.urgency with
    | critical => exact absurd hurgency hcritical
    | _ => decide
  · rw [elevate_standing row hsustained]
    exact .refl _

end CaseRow

namespace Database

variable (db : Database) (settings : Settings) (input : CaseInput) (id : Nat) (row : CaseRow)

theorem sshLoginPromotion_climbs :
    row.standing.Climbs (db.sshLoginPromotion settings input id row).standing := by
  unfold sshLoginPromotion
  split
  · exact row.promote_climbs _ _
  split
  · exact row.promote_climbs _ _
  · exact .refl _

theorem promoteByKind_climbs :
    row.standing.Climbs (db.promoteByKind settings input id row).standing := by
  unfold promoteByKind
  split
  · exact db.sshLoginPromotion_climbs settings input id row
  · split
    · exact row.promote_climbs _ _
    · exact .refl _
  · split
    · exact row.promote_climbs _ _
    · exact .refl _
  · exact .refl _

theorem contributedRow_climbs (events : Nat) (isDistinct : Bool)
    (hspared : row.urgency = .critical → input.urgency = .warning →
      row.occurrenceCount + input.occurrences < 1000) :
    row.standing.Climbs (db.contributedRow settings input events isDistinct id row).standing := by
  unfold contributedRow
  dsimp only
  rw [CaseRow.standing_elevatePromoted, ← row.standing_noteEvidence events isDistinct]
  refine (CaseRow.promote_climbs _ input.urgency input.urgencyReason).trans
    (.trans (CaseRow.elevate_climbs _ ?_) (db.promoteByKind_climbs settings input id _))
  intro hcritical hsustained
  obtain ⟨hcount, hwarning⟩ := hsustained
  have hnoted := CaseRow.critical_of_raiseUrgency _ (by rw [hwarning]; decide) hcritical
  have hrow : row.urgency = .critical :=
    (congrArg Standing.urgency (row.standing_noteEvidence events isDistinct)).symm.trans hnoted
  rw [← CaseRow.raiseUrgency_eq, CaseRow.occurrenceCount_raiseUrgency,
    CaseRow.occurrenceCount_noteEvidence] at hcount
  exact absurd (hspared hrow hwarning) hcount.not_gt

theorem contributedRow_sustained (events : Nat) (isDistinct : Bool)
    (hwarning : input.urgency = .warning)
    (hcount : 1000 ≤ row.occurrenceCount + input.occurrences)
    (hkind : input.wireKind ≠ some .sshLogin) :
    (db.contributedRow settings input events isDistinct id row).urgency = .high := by
  unfold contributedRow
  dsimp only
  have hsustained : ((row.noteEvidence input events isDistinct).raiseUrgency input).isSustained
      input := by
    refine ⟨?_, hwarning⟩
    rw [CaseRow.occurrenceCount_raiseUrgency, CaseRow.occurrenceCount_noteEvidence]
    exact hcount
  have hjudged := CaseRow.elevate_sustained _ hsustained
  generalize (CaseRow.raiseUrgency input _).elevate input = judged at hjudged ⊢
  have hhigh : judged.urgency = .high := congrArg Standing.urgency hjudged
  have hkept : ∀ urgency reason, urgency.rank ≤ Urgency.high.rank →
      (judged.promote urgency reason).urgency = .high := by
    intro urgency reason hrank
    unfold CaseRow.promote
    rw [hhigh, if_neg hrank.not_gt, hhigh]
  have hpromoted : (db.promoteByKind settings input id judged).urgency = .high := by
    unfold promoteByKind
    split
    next hlogin => exact absurd hlogin hkind
    · split
      · exact hkept _ _ (by decide)
      · exact hhigh
    · split
      · exact hkept _ _ (by decide)
      · exact hhigh
    · exact hhigh
  exact (congrArg Standing.urgency (CaseRow.standing_elevatePromoted _)).trans hpromoted

end Database

end DjangoMojo.Cases
