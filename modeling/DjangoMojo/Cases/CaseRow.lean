import DjangoMojo.Cases.Evidence
import DjangoMojo.Foundation.Table
import Mathlib.Data.List.Sort

/-! # Cases and the contribution of receipts

A case row counts the receipts of one correlation key in one window. One contribution is
one transaction that holds the locks of the receipt and of the case.
-/

namespace DjangoMojo.Cases

open Foundation

inductive CaseState where
  | observing | elevated | settled
  deriving DecidableEq, Repr

/-- The JSON column of a case; a key that is not there is `none`. -/
structure Breakdown where
  operations : Option (List (String × Nat)) := none
  tiers : Option (List (String × Nat)) := none
  corroboratedWith : Option (List Nat) := none

structure CaseRow where
  groupId : Option Nat := none
  installationKey : Nat
  sensorId : String
  sensorKind : SensorKind
  resourceId : String := ""
  family : String
  network : String := ""
  deploymentId : String := ""
  campaign : Option Nat := none
  correlationKey : String
  windowKey : String
  windowStart : Time
  windowEnd : Time
  firstSeen : Time
  lastSeen : Time
  policyVersion : Nat := 1
  evaluatorVersion : Nat := 3
  state : CaseState := .observing
  stateReason : Reason := .shadowObservation
  urgency : Urgency := .info
  urgencyReason : Reason := .unknownEvidence
  settledAt : Option Time := none
  projectedUrgency : Option Urgency := none
  projectionDispatchedAt : Option Time := none
  occurrenceCount : Nat := 0
  receiptCount : Nat := 0
  projectedEventCount : Nat := 0
  distinctCount : Nat := 0
  sampleCount : Nat := 0
  overflowCount : Nat := 0
  samples : List Json := []
  observedSources : List String := []
  distinctSourceCount : Nat := 0
  breakdown : Breakdown := {}

structure ReceiptRow where
  apiKey : Nat
  groupId : Option Nat
  sensorId : String
  caseRouted : Bool := false
  mojosecCase : Option Nat := none
  caseSampleKey : String := ""
  caseContributedAt : Option Time := none

inductive TransitionKind where
  | opened | updated | promoted | reopened | projection | settled
  deriving DecidableEq, Repr

/-- An audit row; a transition of the system has no receipt. -/
structure Transition where
  case : Nat
  receipt : Option Nat := none
  kind : TransitionKind
  reason : Reason
  fromState : Option CaseState
  toState : CaseState
  fromUrgency : Option Urgency
  toUrgency : Urgency
  projectedEvent : Option Nat := none

/-- What the publication of an Event finds: the handler of the rule set of its incident, empty
where there is none, and whether the incident asks to run it. -/
structure Publication where
  handler : String := ""
  triggers : Bool := false

/-- `should_dispatch`. -/
def Publication.shouldDispatch (publication : Publication) : Bool :=
  publication.triggers && publication.handler ≠ ""

structure ProjectedEvent where
  id : Nat
  case : Nat
  level : Nat
  urgency : Urgency
  reason : Reason
  corroboratingCaseIds : Option (List Nat)
  publication : Publication

structure Database where
  cases : Table Nat CaseRow
  receipts : Table Nat ReceiptRow
  transitions : List Transition := []
  events : List ProjectedEvent := []

/-- The static settings of the process that takes a step, within their bounds. -/
structure Settings where
  naming : Naming
  sshPromoteMinFailures : Nat := 5
  authElevateOccurrences : Nat := 50
  hostElevateOccurrences : Nat := 10
  corroborationWindow : Time := hour
  campaignMinSources : Nat := 10
  quiet : Time := minute
  /-- `installation_mode(key) == "authoritative"`. -/
  isAuthoritative : Nat → Bool

def maxSamples : Nat := 8
def maxBreakdownOperations : Nat := 16
def maxBreakdownTiers : Nat := 8
def maxCaseSources : Nat := 64
def maxCorroboratingCases : Nat := 8

/-! ### Steps of a contribution -/

/-- Add to the count of a key; past the cap a new key counts under `_other`. -/
def tally (cap : Nat) (counts : List (String × Nat)) (key : String) (count : Nat) :
    List (String × Nat) :=
  let key := if (counts.lookup key).isNone && cap ≤ counts.length then "_other" else key
  if (counts.lookup key).isSome then
    counts.map fun entry => if entry.1 = key then (key, entry.2 + count) else entry
  else counts ++ [(key, count)]

namespace CaseRow

/-- `_apply_breakdown`. -/
def applyBreakdown (info : BreakdownInput) (row : CaseRow) : CaseRow :=
  { row with breakdown :=
      { operations := some (tally maxBreakdownOperations (row.breakdown.operations.getD [])
          info.operation info.count)
        tiers := some (tally maxBreakdownTiers (row.breakdown.tiers.getD []) info.tier
          info.count) } }

/-- `_breakdown_failures`. -/
def breakdownFailures (row : CaseRow) : Nat :=
  ((row.breakdown.operations.getD []).lookup "auth.ssh_failure").getD 0

/-- The sample, the counters and the times that one contribution changes. -/
def countEvidence (input : CaseInput) (projectedEvents : Nat) (isDistinct : Bool)
    (row : CaseRow) : CaseRow :=
  let hasRoom := row.samples.length < maxSamples
  let samples := if isDistinct && hasRoom then row.samples ++ [input.sample] else row.samples
  { row with
    samples := samples.take maxSamples
    sampleCount := if isDistinct && hasRoom then samples.length else row.sampleCount
    overflowCount := if isDistinct && !hasRoom then row.overflowCount + 1 else row.overflowCount
    occurrenceCount := row.occurrenceCount + input.occurrences
    receiptCount := row.receiptCount + 1
    projectedEventCount := row.projectedEventCount + projectedEvents
    distinctCount := row.distinctCount + if isDistinct then 1 else 0
    firstSeen := min row.firstSeen input.observed
    lastSeen := max row.lastSeen input.observed }

def noteSource (source : Option String) (row : CaseRow) : CaseRow :=
  match source with
  | none => row
  | some source =>
    if source = "" || source ∈ row.observedSources then row
    else
      { row with
        distinctSourceCount := row.distinctSourceCount + 1
        observedSources := if row.observedSources.length < maxCaseSources then
          row.observedSources ++ [source] else row.observedSources }

/-- A deployment case widens its window, and a settled one opens again. -/
def noteDeployment (input : CaseInput) (row : CaseRow) : CaseRow :=
  if input.family = "deployment" then
    let widened := { row with
      windowStart := min row.windowStart input.observed
      windowEnd := max row.windowEnd input.observed }
    if row.state = .settled then
      { widened with state := .observing, stateReason := .deploymentReopened, settledAt := none }
    else widened
  else row

def noteEvidence (input : CaseInput) (projectedEvents : Nat) (isDistinct : Bool)
    (row : CaseRow) : CaseRow :=
  let counted := (row.countEvidence input projectedEvents isDistinct).noteSource input.sourceIp
  let detailed := match input.breakdown with
    | some info => counted.applyBreakdown info
    | none => counted
  detailed.noteDeployment input

/-- The urgency of the evidence, when it ranks above that of the case. -/
def raiseUrgency (input : CaseInput) (row : CaseRow) : CaseRow :=
  if row.urgency.rank < input.urgency.rank then
    { row with urgency := input.urgency, urgencyReason := input.urgencyReason }
  else row

/-- Promoted evidence elevates the case, and so does sustained evidence of warning. -/
def elevate (input : CaseInput) (row : CaseRow) : CaseRow :=
  if input.urgency.isPromoted then
    { row with state := .elevated, stateReason := input.urgencyReason }
  else if 1000 ≤ row.occurrenceCount && input.urgency = .warning then
    -- no comparison of ranks stands before this assignment
    { row with
      state := .elevated, stateReason := .sustainedTrustedImpossiblePaths
      urgency := .high, urgencyReason := .sustainedTrustedImpossiblePaths }
  else row

/-- An assignment of urgency that stands behind a comparison of ranks. -/
def promote (urgency : Urgency) (reason : Reason) (row : CaseRow) : CaseRow :=
  if row.urgency.rank < urgency.rank then { row with urgency := urgency, urgencyReason := reason }
  else row

/-- The state follows an urgency that the promotions raised. -/
def elevatePromoted (row : CaseRow) : CaseRow :=
  if row.urgency.isPromoted && row.state ≠ .elevated then
    { row with state := .elevated, stateReason := row.urgencyReason }
  else row

end CaseRow

/-- Rows in the order of the model: the latest seen first, then the latest created. -/
def latestFirst (rows : List (Nat × CaseRow)) : List (Nat × CaseRow) :=
  rows.insertionSort fun first second =>
    second.2.lastSeen < first.2.lastSeen ∨
      (second.2.lastSeen = first.2.lastSeen ∧ second.1 ≤ first.1)

namespace Database

variable (db : Database)

def filter (condition : Nat → CaseRow → Bool) : List (Nat × CaseRow) :=
  db.cases.rows.filter fun entry => condition entry.1 entry.2

/-- The case of a window, which the unique constraint makes one. -/
def caseOf (installation : Nat) (correlationKey windowKey : String) : Option (Nat × CaseRow) :=
  (db.filter fun _ row => row.installationKey = installation &&
    row.correlationKey = correlationKey && row.windowKey = windowKey).head?

/-- The failed logins of the case and, where they are too few, of its previous window. -/
def ownFailures (settings : Settings) (input : CaseInput) (row : CaseRow) : Nat :=
  if row.breakdownFailures < settings.sshPromoteMinFailures then
    let twin := db.caseOf row.installationKey row.correlationKey
      (settings.naming.windowKey (input.windowStart - hour) input.windowStart)
    row.breakdownFailures + (twin.map fun found => found.2.breakdownFailures).getD 0
  else row.breakdownFailures

def accountFailures (input : CaseInput) (id : Nat) (row : CaseRow) : Nat :=
  let others := (latestFirst (db.filter fun other found =>
    found.installationKey = row.installationKey && found.sensorId = row.sensorId &&
    found.sensorKind = .auth && found.family = "ssh" && found.resourceId = row.resourceId &&
    input.observed - 2 * hour ≤ found.lastSeen && other ≠ id)).take 32
  (others.map fun found => found.2.breakdownFailures).sum

/-- `_apply_ssh_login_promotion`: a login after failures of its own source is critical, and
one during failures of the account is high. -/
def sshLoginPromotion (settings : Settings) (input : CaseInput) (id : Nat) (row : CaseRow) :
    CaseRow :=
  if settings.sshPromoteMinFailures ≤ db.ownFailures settings input row then
    row.promote .critical .sshFailureThenSuccess
  else if settings.sshPromoteMinFailures ≤ db.accountFailures input id row then
    row.promote .high .sshLoginDuringFailureBurst
  else row

def promoteByKind (settings : Settings) (input : CaseInput) (id : Nat) (row : CaseRow) : CaseRow :=
  match input.wireKind with
  | some .sshLogin => db.sshLoginPromotion settings input id row
  | some .sshFailure =>
    if settings.authElevateOccurrences ≤ row.breakdownFailures then
      row.promote .warning .sshFailureBurst
    else row
  | some .serviceError =>
    if settings.hostElevateOccurrences ≤ row.occurrenceCount then
      row.promote .high .serviceFailureBurst
    else row
  | _ => row

def contributedRow (settings : Settings) (input : CaseInput) (projectedEvents : Nat)
    (isDistinct : Bool) (id : Nat) (row : CaseRow) : CaseRow :=
  let noted := row.noteEvidence input projectedEvents isDistinct
  let judged := (noted.raiseUrgency input).elevate input
  (db.promoteByKind settings input id judged).elevatePromoted

def newCase (receipt : ReceiptRow) (input : CaseInput) : CaseRow where
  groupId := receipt.groupId
  installationKey := receipt.apiKey
  sensorId := receipt.sensorId
  sensorKind := input.sensorKind
  resourceId := input.resourceId
  family := input.family
  network := input.network
  deploymentId := input.deploymentId
  correlationKey := input.correlationKey
  windowKey := input.windowKey
  windowStart := input.windowStart
  windowEnd := input.windowEnd
  firstSeen := input.observed
  lastSeen := input.observed
  policyVersion := input.policyVersion
  urgency := input.urgency
  urgencyReason := input.urgencyReason

def isDistinct (id : Nat) (sampleKey : String) : Bool :=
  db.receipts.rows.all fun entry =>
    entry.2.mojosecCase ≠ some id || entry.2.caseSampleKey ≠ sampleKey

def contributionKind (created : Bool) (input : CaseInput) (before after : CaseRow) :
    TransitionKind :=
  if before.state ≠ after.state || before.urgency ≠ after.urgency then
    if input.family = "deployment" && before.state = .settled then .reopened else .promoted
  else if created then .opened else .updated

end Database

inductive Call where
  | project (case : Nat)
  | corroborate (case : Nat)
  deriving DecidableEq

/-- The calls of a commit: a projection that the ratchet allows, and a search for
corroborating evidence. -/
def CaseRow.calls (authoritative : Bool) (id : Nat) (row : CaseRow) : List Call :=
  (if authoritative && projectedRank row.projectedUrgency < row.urgency.rank &&
      row.urgency.isPromoted then [.project id] else []) ++
  (if row.urgency.isPromoted && row.urgencyReason ∈ corroborationReasons &&
      row.breakdown.corroboratedWith.isNone then [.corroborate id] else [])

/-- A call of `contribute`, with what it decodes of the event; `fresh` is the key of a
new case. -/
structure Contribution where
  receipt : Nat
  authoritative : Bool
  observed : Time
  count : Nat
  evidence : Evidence
  fresh : Nat
  now : Time

def Contribution.input (settings : Settings) (receipt : ReceiptRow) (call : Contribution) :
    CaseInput :=
  caseInput settings.naming receipt.apiKey receipt.sensorId call.observed call.count call.evidence

namespace Database

variable (db : Database)

/-- `contribute`: the transaction, and the calls that its commit makes. -/
def contribute (settings : Settings) (call : Contribution) : Option (Database × List Call) :=
  (db.receipts.get call.receipt).bind fun receipt =>
    if receipt.caseContributedAt.isSome then some (db, [])
    else
      let input := call.input settings receipt
      let found := db.caseOf receipt.apiKey input.correlationKey input.windowKey
      if found.isNone && (db.cases.get call.fresh).isSome then none
      else
        let (id, before) := found.getD (call.fresh, newCase receipt input)
        let row := db.contributedRow settings input
          (if receipt.caseRouted then 0 else input.projectedEvents)
          (db.isDistinct id input.sampleKey) id before
        some ({ db with
          cases := db.cases.put id row
          receipts := db.receipts.put call.receipt { receipt with
            mojosecCase := some id, caseSampleKey := input.sampleKey
            caseContributedAt := some call.now }
          transitions := db.transitions ++ [{
            case := id, receipt := some call.receipt
            kind := contributionKind found.isNone input before row
            reason := row.urgencyReason
            fromState := if found.isNone then none else some before.state, toState := row.state
            fromUrgency := if found.isNone then none else some before.urgency
            toUrgency := row.urgency }] }, row.calls call.authoritative id)

end Database

end DjangoMojo.Cases
