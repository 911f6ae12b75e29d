import DjangoMojo.Cases.UrgencyRuns

/-! # Columns that only a projection writes

Contributions, corroborations, campaigns and settling leave the Events, the audit rows of
projections and the two columns of a case that tell of them as they are.
-/

namespace DjangoMojo.Cases

open Foundation

namespace CaseRow

/-- What is projected of a case, and when its dispatch was confirmed. -/
def marker (row : CaseRow) : Option Urgency × Option Time :=
  (row.projectedUrgency, row.projectionDispatchedAt)

variable {input : CaseInput} (row : CaseRow)

theorem marker_noteEvidence (events : Nat) (isDistinct : Bool) :
    (row.noteEvidence input events isDistinct).marker = row.marker := by
  have hsource : ∀ other : CaseRow, (other.noteSource input.sourceIp).marker = other.marker := by
    intro other
    unfold noteSource
    split
    · rfl
    · split <;> rfl
  have hdeployment : ∀ other : CaseRow, (other.noteDeployment input).marker = other.marker := by
    intro other
    unfold noteDeployment
    split
    · dsimp only
      split <;> rfl
    · rfl
  unfold noteEvidence
  rw [hdeployment]
  cases input.breakdown with
  | none => exact hsource _
  | some info =>
    change (noteSource _ _).marker = _
    exact hsource _

theorem marker_promote (urgency : Urgency) (reason : Reason) :
    (row.promote urgency reason).marker = row.marker := by
  unfold promote
  split <;> rfl

theorem marker_elevate : (row.elevate input).marker = row.marker := by
  unfold elevate
  split
  · rfl
  · split <;> rfl

theorem marker_elevatePromoted : row.elevatePromoted.marker = row.marker := by
  unfold elevatePromoted
  split <;> rfl

end CaseRow

namespace Database

variable {db next : Database} {id : Nat}

theorem marker_promoteByKind (db : Database) (settings : Settings) (input : CaseInput) (id : Nat)
    (row : CaseRow) : (db.promoteByKind settings input id row).marker = row.marker := by
  unfold promoteByKind
  split
  · unfold sshLoginPromotion
    split
    · exact row.marker_promote _ _
    split
    · exact row.marker_promote _ _
    · rfl
  · split
    · exact row.marker_promote _ _
    · rfl
  · split
    · exact row.marker_promote _ _
    · rfl
  · rfl

theorem marker_contributedRow (db : Database) (settings : Settings) (input : CaseInput)
    (events : Nat) (isDistinct : Bool) (id : Nat) (row : CaseRow) :
    (db.contributedRow settings input events isDistinct id row).marker = row.marker := by
  unfold contributedRow
  dsimp only
  rw [CaseRow.marker_elevatePromoted, marker_promoteByKind, CaseRow.marker_elevate,
    CaseRow.raiseUrgency_eq, CaseRow.marker_promote, CaseRow.marker_noteEvidence]

def isProjection (transition : Transition) : Bool := transition.kind = .projection

def marker (db : Database) (id : Nat) : Option (Option Urgency × Option Time) :=
  (db.cases.get id).map CaseRow.marker

/-- No projection is made and none is confirmed; a case that is new has neither. -/
structure KeepsProjections (db next : Database) : Prop where
  events : next.events = db.events
  transitions : next.transitions.filter isProjection = db.transitions.filter isProjection
  marker : ∀ id, next.marker id = db.marker id ∨
    (db.cases.get id = none ∧ next.marker id = some (none, none))

namespace KeepsProjections

theorem refl (db : Database) : KeepsProjections db db := ⟨rfl, rfl, fun _ => .inl rfl⟩

/-- One audit row of another kind, and one row that keeps its marker. -/
theorem of_write {transition : Transition} {before row : CaseRow}
    (hcases : next.cases = db.cases.put id row) (hevents : next.events = db.events)
    (htransitions : next.transitions = db.transitions ++ [transition])
    (hkind : transition.kind ≠ .projection) (hmarker : row.marker = before.marker)
    (hbefore : db.cases.get id = some before ∨
      (db.cases.get id = none ∧ before.marker = (none, none))) :
    KeepsProjections db next where
  events := hevents
  transitions := by
    rw [htransitions, List.filter_append, List.filter_cons_of_neg (by simpa [isProjection] using hkind),
      List.filter_nil, List.append_nil]
  marker := by
    intro other
    unfold Database.marker
    rw [hcases, Table.get_put]
    split
    next heq =>
      subst heq
      rw [Option.map_some, hmarker]
      rcases hbefore with hbefore | ⟨habsent, hblank⟩
      · rw [hbefore, Option.map_some]
        exact .inl rfl
      · rw [hblank]
        exact .inr ⟨habsent, rfl⟩
    · exact .inl rfl

end KeepsProjections

theorem contribute_keeps {settings : Settings} {call : Contribution} {calls : List Call}
    (hnext : db.contribute settings call = some (next, calls)) : KeepsProjections db next := by
  rcases contribute_cases hnext with ⟨rfl, _⟩ | ⟨receipt, written, before, events, isDistinct,
    transition, _, _, hlocks, hcases, hevents, htransitions, _, hkind, _⟩
  · exact .refl _
  refine .of_write hcases hevents htransitions hkind (db.marker_contributedRow ..) ?_
  rcases hlocks with hfound | ⟨_, habsent, hnew⟩
  · exact .inl (caseOf_get hfound)
  · rw [hnew]
    exact .inr ⟨habsent, rfl⟩

theorem corroborate_keeps {settings : Settings} {calls : List Call}
    (hnext : db.corroborate settings id = (next, calls)) : KeepsProjections db next := by
  rcases corroborate_cases hnext with rfl | ⟨row, neighbors, transition, hrow, _, hcases, hevents,
    htransitions, _, hkind, _⟩
  · exact .refl _
  · have hmarker : (row.corroborated neighbors).marker = row.marker := rfl
    exact .of_write hcases hevents htransitions (by simp [hkind]) hmarker (.inl hrow)

theorem settle_keeps {settings : Settings} {now : Time}
    (hnext : db.settle settings now id = next) : KeepsProjections db next := by
  rcases settle_cases hnext with rfl | ⟨row, transition, hrow, hcases, hevents, htransitions, hkind,
    _⟩
  · exact .refl _
  · have hmarker : (row.settled now).marker = row.marker := rfl
    exact .of_write hcases hevents htransitions (by simp [hkind]) hmarker (.inl hrow)

theorem marker_joinCampaign (campaign : Nat) (members : List Nat) (cases : Table Nat CaseRow)
    (id : Nat) : ((joinCampaign cases campaign members).get id).map CaseRow.marker =
      (cases.get id).map CaseRow.marker := by
  induction members generalizing cases with
  | nil => rfl
  | cons member rest ih =>
    rw [joinCampaign, List.foldl_cons, ← joinCampaign, ih, Table.get_modify]
    split
    · rw [Option.map_map]
      rfl
    · rfl

theorem refreshCampaign_keeps {stats : CampaignStats} {members : List (Nat × CaseRow)}
    {created : Bool} {before : CaseRow}
    (hnext : db.refreshCampaign stats members created id before = next)
    (hbefore : db.cases.get id = some before ∨
      (db.cases.get id = none ∧ before.marker = (none, none))) : KeepsProjections db next := by
  subst hnext
  unfold refreshCampaign
  dsimp only
  refine ⟨rfl, ?_, fun other => ?_⟩
  · dsimp only
    rw [List.filter_append]
    split
    · cases created <;> exact List.append_nil _
    · exact List.append_nil _
  · unfold Database.marker
    dsimp only
    rw [marker_joinCampaign, Table.get_put]
    split
    next heq =>
      subst heq
      rcases hbefore with hbefore | ⟨habsent, hblank⟩
      · rw [hbefore]
        exact .inl rfl
      · exact .inr ⟨habsent, congrArg some hblank⟩
    · exact .inl rfl

theorem campaignSweep_keeps {settings : Settings} {now : Time} {seen : Database}
    {key : CampaignKey} {fresh : Nat}
    (hnext : db.campaignSweep settings now seen key fresh = some next) :
    KeepsProjections db next := by
  rcases campaignSweep_cases hnext with rfl | ⟨stats, members, created, id, before, hrefresh,
    _, hbefore⟩
  · exact .refl _
  · exact refreshCampaign_keeps hrefresh
      (hbefore.imp_right fun hnew => ⟨hnew.1, Prod.ext hnew.2.1 hnew.2.2⟩)

end Database

def Action.isRecord : Action → Bool
  | .project .. => false
  | .confirm .. => false
  | _ => true

theorem step_keepsProjections {system next : System} {action : Action}
    (hrecord : action.isRecord) (hnext : step system action = some next) :
    Database.KeepsProjections system.db next.db := by
  cases action with
  | contribute settings call =>
    obtain ⟨⟨db, calls⟩, hcontribute, hresult⟩ := Option.map_eq_some_iff.mp hnext
    cases hresult
    exact Database.contribute_keeps hcontribute
  | corroborate settings other =>
    simp only [step] at hnext
    split at hnext
    · cases hnext
      exact Database.corroborate_keeps rfl
    · cases hnext
  | project => cases hrecord
  | confirm => cases hrecord
  | campaign settings now seen key fresh =>
    obtain ⟨db, hsweep, hresult⟩ := Option.map_eq_some_iff.mp hnext
    cases hresult
    exact Database.campaignSweep_keeps hsweep
  | settle settings now other =>
    cases hnext
    exact Database.settle_keeps rfl
  | drop call =>
    cases hnext
    exact .refl _

/-- Only projections and confirmations touch them. -/
theorem eachStep_keepsProjections (system : System) (actions : List Action) :
    EachStep step (fun before action after =>
      action.isRecord → Database.KeepsProjections before.db after.db) system actions :=
  EachStep.of_step (fun _ _ _ hnext hrecord => step_keepsProjections hrecord hnext) system actions

end DjangoMojo.Cases
