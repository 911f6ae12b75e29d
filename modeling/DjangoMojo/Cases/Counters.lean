import DjangoMojo.Cases.UrgencyRuns

/-! # The counters of a case

A case counts the receipts that are linked to it. What a contribution adds is a function of
its own evidence and of whether its sample is the first of its key; what judges the case
afterwards touches no counter.
-/

namespace DjangoMojo.Cases

open Foundation

structure Figures where
  installationKey : Nat
  sensorKind : SensorKind
  correlationKey : String
  windowKey : String
  receiptCount : Nat
  occurrenceCount : Nat
  distinctCount : Nat
  sampleCount : Nat
  overflowCount : Nat
  samples : List Json
  firstSeen : Time
  lastSeen : Time
  operations : List (String × Nat)
  tiers : List (String × Nat)

/-! ### Tallies -/

def countSum (counts : List (String × Nat)) : Nat := (counts.map Prod.snd).sum

theorem lookup_isSome_iff {counts : List (String × Nat)} {key : String} :
    (counts.lookup key).isSome = true ↔ key ∈ counts.map Prod.fst := by
  induction counts with
  | nil => simp
  | cons entry rest ih =>
    rw [List.lookup_cons, List.map_cons, List.mem_cons]
    by_cases heq : key = entry.1
    · simp [heq]
    · rw [beq_eq_false_iff_ne.mpr heq, ← ih]
      simp [heq]

theorem countSum_bump {counts : List (String × Nat)} {key : String} (count : Nat)
    (hnodup : (counts.map Prod.fst).Nodup) (hkey : key ∈ counts.map Prod.fst) :
    countSum (counts.map fun entry => if entry.1 = key then (key, entry.2 + count) else entry) =
      countSum counts + count := by
  induction counts with
  | nil => cases hkey
  | cons entry rest ih =>
    obtain ⟨habsent, hrest⟩ := List.nodup_cons.mp hnodup
    simp only [countSum, List.map_cons, List.sum_cons] at ih ⊢
    by_cases heq : entry.1 = key
    · have hsame : rest.map (fun entry => if entry.1 = key then (key, entry.2 + count) else entry) =
          rest := by
        refine (List.map_congr_left fun other hother => ?_).trans (List.map_id _)
        have hne : other.1 ≠ key := by
          intro hother'
          rw [heq, ← hother'] at habsent
          exact habsent (List.mem_map_of_mem hother)
        rw [if_neg hne]
        rfl
      rw [if_pos heq, hsame]
      dsimp only
      omega
    · have hmem : key ∈ rest.map Prod.fst := by
        rcases List.mem_cons.mp hkey with hfirst | hmem
        · exact absurd hfirst.symm heq
        · exact hmem
      rw [if_neg heq, ih hrest hmem]
      omega

theorem map_fst_bump (counts : List (String × Nat)) (key : String) (count : Nat) :
    (counts.map fun entry => if entry.1 = key then (key, entry.2 + count) else entry).map Prod.fst =
      counts.map Prod.fst := by
  rw [List.map_map]
  refine List.map_congr_left fun entry _ => ?_
  by_cases heq : entry.1 = key
  · simp [heq]
  · simp [heq]

/-- A tally adds its count, to a key of its own or to the overflow bucket, and keeps the keys
apart. -/
theorem tally_exact {cap : Nat} {counts : List (String × Nat)} {key : String} {count : Nat}
    (hnodup : (counts.map Prod.fst).Nodup) :
    ((tally cap counts key count).map Prod.fst).Nodup ∧
      countSum (tally cap counts key count) = countSum counts + count := by
  unfold tally
  dsimp only
  generalize (if (counts.lookup key).isNone && decide (cap ≤ counts.length) then "_other"
    else key) = kept
  split
  next hsome =>
    have hmem := lookup_isSome_iff.mp hsome
    exact ⟨by rwa [map_fst_bump], countSum_bump count hnodup hmem⟩
  next hnone =>
    have hmem : kept ∉ counts.map Prod.fst := fun hmem => hnone (lookup_isSome_iff.mpr hmem)
    refine ⟨?_, by simp [countSum]⟩
    rw [List.map_append]
    exact hnodup.append (List.nodup_singleton _) (by simpa using hmem)

/-! ### What a contribution adds -/

namespace CaseRow

def figures (row : CaseRow) : Figures where
  installationKey := row.installationKey
  sensorKind := row.sensorKind
  correlationKey := row.correlationKey
  windowKey := row.windowKey
  receiptCount := row.receiptCount
  occurrenceCount := row.occurrenceCount
  distinctCount := row.distinctCount
  sampleCount := row.sampleCount
  overflowCount := row.overflowCount
  samples := row.samples
  firstSeen := row.firstSeen
  lastSeen := row.lastSeen
  operations := row.breakdown.operations.getD []
  tiers := row.breakdown.tiers.getD []

end CaseRow

def Figures.add (input : CaseInput) (isDistinct : Bool) (figures : Figures) : Figures :=
  let hasRoom := figures.samples.length < maxSamples
  let samples := if isDistinct && hasRoom then figures.samples ++ [input.sample] else figures.samples
  { figures with
    samples := samples.take maxSamples
    sampleCount := if isDistinct && hasRoom then samples.length else figures.sampleCount
    overflowCount := if isDistinct && !hasRoom then figures.overflowCount + 1
      else figures.overflowCount
    occurrenceCount := figures.occurrenceCount + input.occurrences
    receiptCount := figures.receiptCount + 1
    distinctCount := figures.distinctCount + if isDistinct then 1 else 0
    firstSeen := min figures.firstSeen input.observed
    lastSeen := max figures.lastSeen input.observed
    operations := match input.breakdown with
      | some info => tally maxBreakdownOperations figures.operations info.operation info.count
      | none => figures.operations
    tiers := match input.breakdown with
      | some info => tally maxBreakdownTiers figures.tiers info.tier info.count
      | none => figures.tiers }

namespace CaseRow

variable {input : CaseInput} (row : CaseRow)

theorem figures_noteSource (source : Option String) :
    (row.noteSource source).figures = row.figures := by
  unfold noteSource
  split
  · rfl
  · split <;> rfl

theorem figures_noteDeployment : (row.noteDeployment input).figures = row.figures := by
  unfold noteDeployment
  split
  · dsimp only
    split <;> rfl
  · rfl

theorem figures_noteEvidence (events : Nat) (isDistinct : Bool) :
    (row.noteEvidence input events isDistinct).figures = row.figures.add input isDistinct := by
  unfold noteEvidence
  rw [figures_noteDeployment]
  have hsource := figures_noteSource (row.countEvidence input events isDistinct) input.sourceIp
  generalize hnoted : noteSource input.sourceIp (row.countEvidence input events isDistinct) = noted
    at hsource
  cases hbreakdown : input.breakdown with
  | none =>
    change noted.figures = _
    rw [hsource, Figures.add, hbreakdown]
    rfl
  | some info =>
    have hcounted : noted.figures = (row.countEvidence input events isDistinct).figures := hsource
    have hoperations : noted.breakdown.operations.getD [] = row.figures.operations :=
      congrArg Figures.operations hcounted
    have htiers : noted.breakdown.tiers.getD [] = row.figures.tiers :=
      congrArg Figures.tiers hcounted
    change (noted.applyBreakdown info).figures = _
    have happlied : (noted.applyBreakdown info).figures = { noted.figures with
        operations := tally maxBreakdownOperations (noted.breakdown.operations.getD [])
          info.operation info.count
        tiers := tally maxBreakdownTiers (noted.breakdown.tiers.getD []) info.tier
          info.count } := rfl
    rw [happlied, hoperations, htiers, hcounted, Figures.add, hbreakdown]
    rfl

theorem figures_promote (urgency : Urgency) (reason : Reason) :
    (row.promote urgency reason).figures = row.figures := by
  unfold promote
  split <;> rfl

theorem figures_elevate : (row.elevate input).figures = row.figures := by
  unfold elevate
  split
  · rfl
  · split <;> rfl

theorem figures_elevatePromoted : row.elevatePromoted.figures = row.figures := by
  unfold elevatePromoted
  split <;> rfl

end CaseRow

namespace Database

variable (db : Database) (settings : Settings) (input : CaseInput) (id : Nat) (row : CaseRow)

theorem figures_promoteByKind :
    (db.promoteByKind settings input id row).figures = row.figures := by
  unfold promoteByKind
  split
  · unfold sshLoginPromotion
    split
    · exact row.figures_promote _ _
    split
    · exact row.figures_promote _ _
    · rfl
  · split
    · exact row.figures_promote _ _
    · rfl
  · split
    · exact row.figures_promote _ _
    · rfl
  · rfl

theorem figures_contributedRow (events : Nat) (isDistinct : Bool) :
    (db.contributedRow settings input events isDistinct id row).figures =
      row.figures.add input isDistinct := by
  unfold contributedRow
  dsimp only
  rw [CaseRow.figures_elevatePromoted, figures_promoteByKind, CaseRow.figures_elevate,
    CaseRow.raiseUrgency_eq, CaseRow.figures_promote, CaseRow.figures_noteEvidence]

end Database

end DjangoMojo.Cases
